import Chip8.Proofs.Cpu.Obstacles
import Chip8.Proofs.Machine.Shown

/-!
# What a shell is asked

In every cycle a script is asked for the keys first. If it is gone, or if the step is
refused, that is all. Otherwise it beeps if the sound timer ran out, and then shows the
screen if it is dirty. The screen is dirty before the first step is made and never between
later ones, so behind the first step it is shown just when the step writes to it.
-/

namespace Chip8

namespace Cpu

/-- Whether the opcode to come writes to the screen: it clears it or draws a sprite on it. -/
def paints (cpu : Cpu) : Bool :=
  cpu.opcode / 0x1000 == 0x0 && cpu.opcode % 0x10 == 0x0 || cpu.opcode / 0x1000 == 0xD

variable {cpu : Cpu} {instruction : Instruction} {screen : Screen} {keypad : Keypad}

theorem paints_eq_of_peek (hpeek : cpu.peek = .ok (some instruction)) :
    cpu.paints = instruction.paints := by
  obtain ⟨-, hrow⟩ := peek_eq_some_iff_standsFor.mp hpeek
  cases instruction with
  | clear | ret =>
    obtain ⟨hfamily, hdigit⟩ := hrow
    rw [paints, hfamily, hdigit]
    rfl
  | _ =>
    obtain ⟨hfamily, -⟩ := hrow
    rw [paints, hfamily]
    rfl

/-- A step that is made leaves the screen dirty if it writes to it. -/
theorem dirty_step {cycle : Cycle} (h : (cpu.step screen keypad).result = .ok cycle) :
    (cpu.step screen keypad).screen.dirty = (screen.dirty || cpu.paints) := by
  cases hfault : cpu.fault? with
  | some fault =>
    rw [step_of_fault? screen keypad hfault] at h
    cases h
  | none =>
    obtain ⟨instruction, hpeek, haccepted⟩ := exists_accepted hfault
    rw [step_of_accepted screen keypad hpeek haccepted, paints_eq_of_peek hpeek]
    exact dirty_execute screen keypad haccepted

end Cpu

/-- Whether a step ran the sound timer out. -/
def Cycle.toned : Cycle → Bool
  | .progressed tone => tone
  | .blocked => false

theorem Cycle.toned_iff {cycle : Cycle} : cycle.toned = true ↔ cycle = .progressed true := by
  cases cycle <;> simp [toned]

/-- Whether the step of a cycle did. -/
def Turn.toned {σ : Type} (turn : Turn σ (Option Cycle)) : Bool :=
  match turn.result with
  | .ok (some cycle) => cycle.toned
  | _ => false

/-- The requests of a cycle in which a step is made. -/
def Request.ofStep (beeps draws : Bool) : List Request :=
  .polled :: ((if beeps then [.beeped] else []) ++ if draws then [.drew] else [])

theorem Request.count_drew_ofStep (beeps draws : Bool) :
    (ofStep beeps draws).count .drew = draws.toNat := by
  cases beeps <;> cases draws <;> rfl

theorem Request.count_beeped_ofStep (beeps draws : Bool) :
    (ofStep beeps draws).count .beeped = beeps.toNat := by
  cases beeps <;> cases draws <;> rfl

namespace Script

variable (script : Script)

/-- Only a script that is not muted notes that it was asked to beep. -/
theorem shell_beep : Shell.beep script = if script.muted then script else script.note .beeped := rfl

theorem log_poll :
    (Shell.poll script).2.log =
      script.log ++ [if (Shell.poll script).1.alive then .polled else .gone] := by
  change script.poll.2.log = script.log ++ [if script.poll.1.alive then .polled else .gone]
  unfold Script.poll
  split <;> rfl

theorem log_sound (cycle : Cycle) :
    (Machine.sound cycle script).log =
      script.log ++ if cycle.toned && !script.muted then [.beeped] else [] := by
  simp only [Machine.sound, ← Cycle.toned_iff, shell_beep]
  cases cycle.toned <;> cases script.muted <;> simp [note]

theorem log_present :
    (Machine.present script).log =
      script.log ++ if script.screen.dirty then [.drew] else [] := by
  unfold Machine.present
  split
  · next hdirty =>
    change script.screen.dirty = true at hdirty
    rw [if_pos hdirty]
    rfl
  · next hclean =>
    change ¬script.screen.dirty = true at hclean
    rw [if_neg hclean, List.append_nil]

theorem muted_poll : (Shell.poll script).2.muted = script.muted := by
  change script.poll.2.muted = script.muted
  unfold Script.poll
  split <;> rfl

theorem muted_sound (cycle : Cycle) : (Machine.sound cycle script).muted = script.muted := by
  unfold Machine.sound
  rw [shell_beep]
  split
  · split <;> rfl
  · rfl

theorem muted_present : (Machine.present script).muted = script.muted := by
  unfold Machine.present
  split <;> rfl

variable {script} {made : Bool}

/-- The screen is dirty until a step is made. -/
theorem Settled.dirty_eq (h : script.Settled made) : script.screen.dirty = !made := by
  cases made with
  | true => exact h.clean
  | false =>
    rw [h.blank]
    rfl

end Script

namespace Machine

/-- No cycle mutes the script or takes that back. -/
theorem muted_cycle (machine : Machine) (script : Script) :
    (machine.cycle script).shell.muted = script.muted := by
  obtain ⟨-, hcycle⟩ | ⟨-, fault, -, hcycle⟩ | ⟨-, cycle, cpu, screen, -, hcycle⟩ :=
    machine.cycle_cases script
  · rw [hcycle]
    exact script.muted_poll
  · rw [hcycle]
    exact script.muted_poll
  · rw [hcycle, Script.muted_present, Script.muted_sound]
    exact script.muted_poll

/-- What a script is asked in a cycle. -/
theorem log_cycle (machine : Machine) (script : Script) :
    let poll := (Shell.poll script).1
    let turn := machine.cycle script
    (poll.alive = false ∧ turn.result = .ok none ∧ turn.shell.log = script.log ++ [.gone]) ∨
    (poll.alive = true ∧ (∃ fault, turn.result = .error fault) ∧
      turn.shell.log = script.log ++ [.polled]) ∨
    (poll.alive = true ∧ turn.stepped = true ∧
      turn.shell.log = script.log ++ Request.ofStep (turn.toned && !script.muted)
        (script.screen.dirty || machine.cpu.paints)) := by
  intro poll turn
  have hlog := script.log_poll
  obtain ⟨halive, hcycle⟩ | ⟨halive, fault, -, hcycle⟩ |
    ⟨halive, cycle, cpu, screen, hstep, hcycle⟩ := machine.cycle_cases script <;>
    rw [halive] at hlog
  · have hturn : turn = _ := hcycle
    rw [hturn]
    exact .inl ⟨halive, rfl, hlog⟩
  · have hturn : turn = _ := hcycle
    rw [hturn]
    exact .inr (.inl ⟨halive, ⟨fault, rfl⟩, hlog⟩)
  · have hturn : turn = _ := hcycle
    rw [hturn]
    refine .inr (.inr ⟨halive, rfl, ?_⟩)
    -- The beep leaves the screen as it is, so what is shown is what the step has left dirty.
    have hscreen : (sound cycle (Shell.withScreen (Shell.poll script).2 screen)).screen = screen :=
      screen_sound cycle (Shell.withScreen (Shell.poll script).2 screen)
    have hdirty := Cpu.dirty_step (congrArg Outcome.result hstep)
    rw [hstep, Queued.screen_poll] at hdirty
    change screen.dirty = (script.screen.dirty || _) at hdirty
    have hmuted : (Shell.withScreen (Shell.poll script).2 screen).muted = script.muted :=
      script.muted_poll
    have hkept : (Shell.withScreen (Shell.poll script).2 screen).log =
        script.log ++ [.polled] := hlog
    simp only [Script.log_present, hscreen, Script.log_sound, hdirty, hmuted, hkept,
      Request.ofStep, Turn.toned, List.append_assoc]
    rfl

/-! ## Many cycles -/

theorem muted_reached (machine : Machine) (script : Script) (n : Nat) :
    (machine.reached script n).2.muted = script.muted := by
  induction n with
  | zero => rfl
  | succ n ih => exact (muted_cycle _ _).trans ih

/-- Whether a step was made in the first `n` cycles. -/
def stepMade (machine : Machine) (script : Script) (n : Nat) : Bool :=
  (List.range n).any fun i => (machine.turnAt script i).stepped

/-- How many of the first `n` cycles make a step that writes to the screen. -/
def paintings (machine : Machine) (script : Script) (n : Nat) : Nat :=
  (List.range n).countP fun i =>
    (machine.turnAt script i).stepped && (machine.reached script i).1.cpu.paints

/-- How many of the first `n` cycles run the sound timer out. -/
def tones (machine : Machine) (script : Script) (n : Nat) : Nat :=
  (List.range n).countP fun i => (machine.turnAt script i).toned

variable {script : Script} (machine : Machine) (n : Nat)

theorem stepMade_succ :
    machine.stepMade script (n + 1) =
      (machine.stepMade script n || (machine.turnAt script n).stepped) := by
  simp only [stepMade, List.range_succ, List.any_append, List.any_cons, List.any_nil, Bool.or_false]

private theorem countP_range_succ (p : Nat → Bool) (n : Nat) :
    (List.range (n + 1)).countP p = (List.range n).countP p + (p n).toNat := by
  rw [List.range_succ, List.countP_append]
  cases hp : p n <;> simp [hp]

theorem paintings_succ :
    machine.paintings script (n + 1) = machine.paintings script n +
      ((machine.turnAt script n).stepped && (machine.reached script n).1.cpu.paints).toNat :=
  countP_range_succ _ n

theorem tones_succ :
    machine.tones script (n + 1) =
      machine.tones script n + (machine.turnAt script n).toned.toNat :=
  countP_range_succ _ n

/-- The screen is dirty up to the first step, and behind it no more. -/
theorem settled_reached (h : script.Settled false) :
    (machine.reached script n).2.Settled (machine.stepMade script n) := by
  induction n with
  | zero => exact h
  | succ n ih =>
    rw [stepMade_succ]
    exact ih.cycle (machine.reached script n).1

/-- What a script that was not shown yet is asked in the cycle behind `n` others. -/
theorem log_turnAt (h : script.Settled false) :
    let here := machine.reached script n
    let turn := machine.turnAt script n
    let poll := pollAt script.polls n
    (poll.alive = false ∧ turn.result = .ok none ∧ turn.shell.log = here.2.log ++ [.gone]) ∨
    (poll.alive = true ∧ (∃ fault, turn.result = .error fault) ∧
      turn.shell.log = here.2.log ++ [.polled]) ∨
    (poll.alive = true ∧ turn.stepped = true ∧
      turn.shell.log = here.2.log ++ Request.ofStep (turn.toned && !script.muted)
        (!machine.stepMade script n || here.1.cpu.paints)) := by
  intro here turn poll
  have hcycle := here.1.log_cycle here.2
  have hpoll : (Shell.poll here.2).1 = poll := machine.poll_reached script n
  rw [hpoll, machine.muted_reached script n, (machine.settled_reached n h).dirty_eq] at hcycle
  exact hcycle

/-- Behind the first step the screen is shown only for a step that writes to it. -/
theorem count_drew_reached (h : script.Settled false) :
    (machine.reached script n).2.log.count .drew ≤
      machine.paintings script n + (machine.stepMade script n).toNat := by
  induction n with
  | zero => exact Nat.le_of_eq (List.count_eq_zero.mpr h.undrawn)
  | succ n ih =>
    rw [paintings_succ, stepMade_succ]
    change (machine.turnAt script n).shell.log.count .drew ≤ _
    obtain ⟨-, hresult, hlog⟩ | ⟨-, ⟨fault, hresult⟩, hlog⟩ | ⟨-, hstepped, hlog⟩ :=
      machine.log_turnAt n h
    · simpa [hlog, Turn.stepped, hresult] using ih
    · simpa [hlog, Turn.stepped, hresult] using ih
    · rw [hlog, List.count_append, Request.count_drew_ofStep, hstepped, Bool.true_and, Bool.or_true]
      cases hmade : machine.stepMade script n <;>
        cases (machine.reached script n).1.cpu.paints <;>
        simp only [hmade, Bool.toNat_false, Bool.toNat_true, Bool.not_false, Bool.not_true,
          Bool.or_false, Bool.or_true] at ih ⊢ <;>
        omega

/-- Every tone is heard as a beep, unless the script is muted. -/
theorem count_beeped_reached (h : script.Settled false) :
    (machine.reached script n).2.log.count .beeped =
      script.log.count .beeped + if script.muted then 0 else machine.tones script n := by
  induction n with
  | zero => cases script.muted <;> rfl
  | succ n ih =>
    rw [tones_succ]
    change (machine.turnAt script n).shell.log.count .beeped = _
    obtain ⟨-, hresult, hlog⟩ | ⟨-, ⟨fault, hresult⟩, hlog⟩ | ⟨-, hstepped, hlog⟩ :=
      machine.log_turnAt n h
    · simpa [hlog, Turn.toned, hresult] using ih
    · simpa [hlog, Turn.toned, hresult] using ih
    · rw [hlog, List.count_append, Request.count_beeped_ofStep, ih]
      cases script.muted <;> simp [Nat.add_assoc]

theorem not_stepMade_iff {machine : Machine} {n : Nat} :
    (!machine.stepMade script n) = true ↔
      ∀ i < n, (machine.turnAt script i).stepped = false := by
  simp [stepMade]

/-- Each cycle of a program asks its script in the same order. Gone, or behind its last
poll, the script is asked for the keys and for nothing else, and likewise if the step is
refused. If the step is made, the script is asked for the keys, then to beep just when the
sound timer ran out, which a muted script does not notice, and then to show the screen just
when no step was made before or when this one clears the screen or draws on it. So it shows
the screen at most once more often than a step writes to it, and it beeps once for each
tone. -/
theorem requests_in_order (rom : Rom) (random : Random) (muted : Bool) (polls : List Poll) :
    let machine := ofCpu (Cpu.ofSource rom random)
    let script := (Script.start muted).feed polls
    (∀ n,
      let here := machine.reached script n
      let turn := machine.turnAt script n
      let poll := pollAt polls n
      (poll.alive = false ∧ turn.result = .ok none ∧ turn.shell.log = here.2.log ++ [.gone]) ∨
      (poll.alive = true ∧ (∃ fault, turn.result = .error fault) ∧
        turn.shell.log = here.2.log ++ [.polled]) ∨
      (poll.alive = true ∧ ∃ cycle beeps draws, turn.result = .ok (some cycle) ∧
        turn.shell.log = here.2.log ++ Request.ofStep beeps draws ∧
        (beeps = true ↔ cycle = .progressed true ∧ muted = false) ∧
        (draws = true ↔ (∀ i < n, (machine.turnAt script i).stepped = false) ∨
          here.1.cpu.paints = true))) ∧
    (∀ n,
      let log := (machine.reached script n).2.log
      log.count .drew ≤ machine.paintings script n + 1 ∧
      log.count .beeped = if muted then 0 else machine.tones script n) := by
  intro machine script
  have hstart : script.Settled false := ⟨rfl, rfl, List.not_mem_nil⟩
  refine ⟨?_, ?_⟩
  · intro n here turn poll
    obtain hgone | hrefused | ⟨halive, hstepped, hlog⟩ := machine.log_turnAt n hstart
    · exact .inl hgone
    · exact .inr (.inl hrefused)
    · obtain ⟨cycle, hresult⟩ := Turn.stepped_iff.mp hstepped
      refine .inr (.inr ⟨halive, cycle, _, _, hresult, hlog, ?_, ?_⟩)
      · have htoned : (machine.turnAt script n).toned = cycle.toned := by
          rw [Turn.toned, hresult]
        rw [htoned, Bool.and_eq_true, Cycle.toned_iff, Bool.not_eq_true']
        rfl
      · rw [Bool.or_eq_true, not_stepMade_iff]
  · intro n log
    refine ⟨?_, ?_⟩
    · have hone := (machine.stepMade script n).toNat_le
      exact Nat.le_trans (machine.count_drew_reached n hstart) (Nat.add_le_add_left hone _)
    · have hcount := machine.count_beeped_reached n hstart
      have hnone : script.log.count .beeped = 0 := rfl
      rw [hnone, Nat.zero_add] at hcount
      exact hcount

end Machine

end Chip8
