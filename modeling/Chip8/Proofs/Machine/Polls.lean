import Chip8.Proofs.Machine.Cycle

/-!
# Machines and their polls

What a machine does is told by the polls of its shell alone: it is the processor, making
one step for each poll that finds the shell there, with the keys as all polls so far have
left them. Showing the screen and beeping have no part in it, so that two shells with the
same polls and the same screen are the same to a machine.
-/

namespace Chip8

/-- A shell that takes its polls from a queue and leaves the screen to the machine. What
else it does to show the screen or to beep is left open. -/
class Queued (σ : Type) [Shell σ] where
  /-- The polls to come, the next one first. -/
  queue : σ → List Poll
  /-- The next poll is the first of the queue; without one the shell is gone. -/
  poll_eq : ∀ shell : σ, (Shell.poll shell).1 = (queue shell).head?.getD ⟨[], false⟩
  /-- Asking for the keys takes the first poll. -/
  queue_poll : ∀ shell : σ, queue (Shell.poll shell).2 = (queue shell).tail
  /-- Asking for the keys leaves the screen alone. -/
  screen_poll : ∀ shell : σ, Shell.screen (Shell.poll shell).2 = Shell.screen shell
  /-- The screen can be replaced. -/
  screen_withScreen : ∀ (shell : σ) screen, Shell.screen (Shell.withScreen shell screen) = screen
  /-- Replacing it takes no poll. -/
  queue_withScreen : ∀ (shell : σ) screen, queue (Shell.withScreen shell screen) = queue shell
  /-- Showing the screen does not change it. -/
  screen_draw : ∀ shell : σ, Shell.screen (Shell.draw shell) = Shell.screen shell
  /-- Showing the screen takes no poll. -/
  queue_draw : ∀ shell : σ, queue (Shell.draw shell) = queue shell
  /-- Beeping leaves the screen alone. -/
  screen_beep : ∀ shell : σ, Shell.screen (Shell.beep shell) = Shell.screen shell
  /-- Beeping takes no poll. -/
  queue_beep : ∀ shell : σ, queue (Shell.beep shell) = queue shell

instance : Queued Script where
  queue := Script.polls
  poll_eq script := by
    change script.poll.1 = _
    unfold Script.poll
    split <;> simp_all
  queue_poll script := by
    change script.poll.2.polls = _
    unfold Script.poll
    split <;> simp_all
  screen_poll script := by
    change script.poll.2.screen = script.screen
    unfold Script.poll
    split <;> rfl
  screen_withScreen _ _ := rfl
  queue_withScreen _ _ := rfl
  screen_draw _ := rfl
  queue_draw script := script.polls_draw
  screen_beep script := by
    change script.beep.screen = script.screen
    unfold Script.beep
    split <;> rfl
  queue_beep script := script.polls_beep

/-- The poll that a queue holds behind `n` others; behind its end the shell is gone. -/
def pollAt (polls : List Poll) (n : Nat) : Poll := polls[n]?.getD ⟨[], false⟩

/-- A shell that is there in all of its polls is there in each. -/
theorem alive_pollAt {polls : List Poll} (h : ∀ poll ∈ polls, poll.alive = true) {n : Nat}
    (hn : n < polls.length) : (pollAt polls n).alive = true := by
  rw [pollAt, List.getElem?_eq_getElem hn, Option.getD_some]
  exact h _ (List.getElem_mem hn)

/-- Behind the last poll the shell is gone. -/
theorem lt_length_of_alive {polls : List Poll} {n : Nat} (h : (pollAt polls n).alive = true) :
    n < polls.length := by
  refine Nat.lt_of_not_le fun hle => ?_
  rw [pollAt, List.getElem?_eq_none hle] at h
  cases h

namespace Keypad

/-- The keys after the given polls, whether or not the shell was there. -/
def ofPolls (polls : List Poll) : Keypad := empty.applyAll (polls.flatMap Poll.events)

/-- The keys after more polls. -/
def behind (keypad : Keypad) (polls : List Poll) : Keypad :=
  keypad.applyAll (polls.flatMap Poll.events)

/-- The keypads that the processor is lent in `n` cycles, one for each poll that finds the
shell there. -/
def lent (polls : List Poll) (n : Nat) : List Keypad :=
  (List.range n).filterMap fun i =>
    if (pollAt polls i).alive then some (ofPolls (polls.take (i + 1))) else none

/-- One more poll counts behind the others. -/
theorem applyAll_take_succ (keypad : Keypad) (polls : List Poll) (n : Nat) :
    keypad.applyAll ((polls.take (n + 1)).flatMap Poll.events) =
      (keypad.applyAll ((polls.take n).flatMap Poll.events)).applyAll (pollAt polls n).events := by
  rw [List.take_add_one, List.flatMap_append, applyAll, List.foldl_append, pollAt]
  cases polls[n]? <;> simp [applyAll]

theorem lent_succ (polls : List Poll) (n : Nat) :
    lent polls (n + 1) =
      if (pollAt polls n).alive then lent polls n ++ [ofPolls (polls.take (n + 1))]
      else lent polls n := by
  rw [lent, List.range_succ, List.filterMap_append, ← lent]
  split
  · next halive => simp [halive]
  · next hgone => simp [hgone]

end Keypad

/-- The processor and the screen after a direct step with each of the keypads. -/
def Cpu.drive (cpu : Cpu) (screen : Screen) (keypads : List Keypad) : Cpu × Screen :=
  keypads.foldl
    (fun state keypad =>
      let outcome := state.1.step state.2 keypad
      (outcome.cpu, outcome.screen))
    (cpu, screen)

theorem Cpu.drive_concat (cpu : Cpu) (screen : Screen) (keypads : List Keypad) (keypad : Keypad) :
    cpu.drive screen (keypads ++ [keypad]) =
      let state := cpu.drive screen keypads
      let outcome := state.1.step state.2 keypad
      (outcome.cpu, outcome.screen) := by
  rw [drive, List.foldl_append]
  rfl

/-- A cycle without a shell: what becomes of the machine and the screen at a poll. -/
def Machine.polled (machine : Machine) (screen : Screen) (poll : Poll) :
    Turn Screen (Option Cycle) :=
  let keypad := machine.keypad.applyAll poll.events
  if poll.alive then
    match machine.cpu.step screen keypad with
    | ⟨.error fault, cpu, screen⟩ => ⟨.error fault, ⟨cpu, keypad⟩, screen⟩
    | ⟨.ok cycle, cpu, screen⟩ => ⟨.ok (some cycle), ⟨cpu, keypad⟩, screen.markShown⟩
  else ⟨.ok none, ⟨machine.cpu, keypad⟩, screen⟩

namespace Machine

/-! ## One poll -/

theorem keypad_polled (machine : Machine) (screen : Screen) (poll : Poll) :
    (machine.polled screen poll).machine.keypad = machine.keypad.applyAll poll.events := by
  unfold polled
  dsimp only
  split
  · split <;> rfl
  · rfl

/-- At a poll that finds the shell there the processor makes one step, whether or not the
screen was shown before. -/
theorem polled_of_alive (machine : Machine) {screen other : Screen} {poll : Poll}
    (halive : poll.alive = true) (h : other.pixels = screen.pixels) :
    let direct := machine.cpu.step other (machine.keypad.applyAll poll.events)
    let turn := machine.polled screen poll
    turn.result = direct.result.map some ∧ turn.machine.cpu = direct.cpu ∧
      turn.shell.pixels = direct.screen.pixels := by
  intro direct turn
  -- The direct step is made on the other screen, so it is first moved to this one.
  obtain ⟨hresult, hcpu, hpixels⟩ :=
    Cpu.step_agrees (machine.keypad.applyAll poll.events) h machine.cpu
  rw [hresult, hcpu, hpixels]
  simp only [turn, polled, halive]
  rcases machine.cpu.step screen (machine.keypad.applyAll poll.events) with ⟨result, cpu, after⟩
  cases result <;> exact ⟨rfl, rfl, rfl⟩

/-- At any other poll only the keys change. -/
theorem polled_of_gone (machine : Machine) (screen : Screen) {poll : Poll}
    (hgone : poll.alive = false) :
    machine.polled screen poll =
      ⟨.ok none, ⟨machine.cpu, machine.keypad.applyAll poll.events⟩, screen⟩ := by
  simp [polled, hgone]

/-! ## One cycle -/

section Queued

variable {σ : Type} [Shell σ] [Queued σ]

open Queued

theorem screen_sound (cycle : Cycle) (shell : σ) :
    Shell.screen (sound cycle shell) = Shell.screen shell := by
  unfold sound
  split
  · exact screen_beep shell
  · rfl

theorem queue_sound (cycle : Cycle) (shell : σ) : queue (sound cycle shell) = queue shell := by
  unfold sound
  split
  · exact queue_beep shell
  · rfl

/-- Once it was presented a screen is not dirty. -/
theorem screen_present (shell : σ) :
    Shell.screen (present shell) = (Shell.screen shell).markShown := by
  unfold present
  split
  · rw [screen_draw, screen_withScreen]
  · next hclean =>
    rw [Screen.markShown, ← Bool.eq_false_iff.mpr hclean]

theorem queue_present (shell : σ) : queue (present shell) = queue shell := by
  unfold present
  split
  · rw [queue_draw, queue_withScreen]
  · rfl

/-- A cycle does what the poll makes of the machine and the screen, and takes the poll. -/
theorem cycle_eq_polled (machine : Machine) (shell : σ) :
    let turn := machine.cycle shell
    let polled := machine.polled (Shell.screen shell) (pollAt (queue shell) 0)
    turn.result = polled.result ∧ turn.machine = polled.machine ∧
      Shell.screen turn.shell = polled.shell ∧ queue turn.shell = (queue shell).tail := by
  have hpoll : pollAt (queue shell) 0 = (Shell.poll shell).1 := by
    rw [poll_eq, pollAt, List.head?_eq_getElem?]
  rw [hpoll, ← screen_poll shell, ← queue_poll shell]
  obtain ⟨halive, hcycle⟩ | ⟨halive, fault, hstep, hcycle⟩ |
    ⟨halive, cycle, cpu, screen, hstep, hcycle⟩ := cycle_cases machine shell
  · simp [hcycle, polled, halive]
  · simp [hcycle, polled, halive, hstep, screen_withScreen, queue_withScreen]
  · simp [hcycle, polled, halive, hstep, screen_present, queue_present, screen_sound, queue_sound,
      screen_withScreen, queue_withScreen]

/-! ## Many cycles -/

theorem queue_reached (machine : Machine) (shell : σ) (n : Nat) :
    queue (machine.reached shell n).2 = (queue shell).drop n := by
  induction n with
  | zero => rfl
  | succ n ih =>
    obtain ⟨-, -, -, hqueue⟩ := cycle_eq_polled (machine.reached shell n).1
      (machine.reached shell n).2
    rw [ih, List.tail_drop] at hqueue
    exact hqueue

/-- The shell is asked for one poll after another. -/
theorem poll_reached (machine : Machine) (shell : σ) (n : Nat) :
    (Shell.poll (machine.reached shell n).2).1 = pollAt (queue shell) n := by
  rw [poll_eq, queue_reached, List.head?_drop]
  rfl

/-- The cycle behind `n` others is made with the poll that stands behind `n` others. -/
theorem turnAt_eq_polled (machine : Machine) (shell : σ) (n : Nat) :
    let here := machine.reached shell n
    let turn := machine.turnAt shell n
    let polled := here.1.polled (Shell.screen here.2) (pollAt (queue shell) n)
    turn.result = polled.result ∧ turn.machine = polled.machine ∧
      Shell.screen turn.shell = polled.shell := by
  intro here turn polled
  have hpoll : pollAt (queue here.2) 0 = pollAt (queue shell) n := by
    rw [queue_reached, pollAt, pollAt, List.getElem?_drop, Nat.add_zero]
  obtain ⟨hresult, hmachine, hscreen, -⟩ := cycle_eq_polled here.1 here.2
  rw [hpoll] at hresult hmachine hscreen
  exact ⟨hresult, hmachine, hscreen⟩

/-- The keys are as all polls so far have left them. -/
theorem keypad_reached (machine : Machine) (shell : σ) (n : Nat) :
    (machine.reached shell n).1.keypad =
      machine.keypad.applyAll (((queue shell).take n).flatMap Poll.events) := by
  induction n with
  | zero => rfl
  | succ n ih =>
    obtain ⟨-, hmachine, -⟩ := machine.turnAt_eq_polled shell n
    change (machine.turnAt shell n).machine.keypad = _
    rw [hmachine, keypad_polled, ih, Keypad.applyAll_take_succ]

/-- To a machine two shells with the same polls and the same screen are the same. -/
theorem reached_congr {τ : Type} [Shell τ] [Queued τ] {left : σ} {right : τ}
    (hqueue : queue left = queue right) (hscreen : Shell.screen left = Shell.screen right)
    (machine : Machine) (n : Nat) :
    (machine.reached left n).1 = (machine.reached right n).1 ∧
      Shell.screen (machine.reached left n).2 = Shell.screen (machine.reached right n).2 := by
  induction n with
  | zero => exact ⟨rfl, hscreen⟩
  | succ n ih =>
    obtain ⟨-, hmachine, hscreen⟩ := machine.turnAt_eq_polled left n
    obtain ⟨-, hmachine', hscreen'⟩ := machine.turnAt_eq_polled right n
    rw [ih.1, ih.2, hqueue] at hmachine hscreen
    exact ⟨hmachine.trans hmachine'.symm, hscreen.trans hscreen'.symm⟩

/-- A cycle whose poll finds the shell there makes a direct step, with the keys as all polls
so far have left them and whatever screen has the same picture. -/
theorem turnAt_eq_step (machine : Machine) (shell : σ) {n : Nat}
    (halive : (pollAt (queue shell) n).alive = true) {screen : Screen}
    (h : screen.pixels = (Shell.screen (machine.reached shell n).2).pixels) :
    let turn := machine.turnAt shell n
    let direct := (machine.reached shell n).1.cpu.step screen
      (machine.keypad.behind ((queue shell).take (n + 1)))
    turn.result = direct.result.map some ∧ turn.machine.cpu = direct.cpu ∧
      (Shell.screen turn.shell).pixels = direct.screen.pixels := by
  have hkeypad : (machine.reached shell n).1.keypad.applyAll (pollAt (queue shell) n).events =
      machine.keypad.behind ((queue shell).take (n + 1)) := by
    rw [keypad_reached, ← Keypad.applyAll_take_succ]
    rfl
  have hstep := polled_of_alive (machine.reached shell n).1 halive h
  obtain ⟨hresult, hmachine, hscreen⟩ := machine.turnAt_eq_polled shell n
  intro turn direct
  rw [hresult, hmachine, hscreen]
  rw [hkeypad] at hstep
  exact hstep

/-! ## The bare processor -/

/-- The keys of a machine that starts with none down are those of the polls alone. -/
theorem turnAt_of_alive (cpu : Cpu) (shell : σ) {n : Nat}
    (halive : (pollAt (queue shell) n).alive = true) {screen : Screen}
    (h : screen.pixels = (Shell.screen ((ofCpu cpu).reached shell n).2).pixels) :
    let turn := (ofCpu cpu).turnAt shell n
    let direct := ((ofCpu cpu).reached shell n).1.cpu.step screen
      (Keypad.ofPolls ((queue shell).take (n + 1)))
    turn.result = direct.result.map some ∧ turn.machine.cpu = direct.cpu ∧
      (Shell.screen turn.shell).pixels = direct.screen.pixels :=
  turnAt_eq_step (ofCpu cpu) shell halive h

/-- Any other cycle leaves the processor and the screen alone. -/
theorem turnAt_of_gone (machine : Machine) (shell : σ) {n : Nat}
    (hgone : (pollAt (queue shell) n).alive = false) :
    let here := machine.reached shell n
    let turn := machine.turnAt shell n
    turn.result = .ok none ∧ turn.machine.cpu = here.1.cpu ∧
      Shell.screen turn.shell = Shell.screen here.2 := by
  obtain ⟨hresult, hmachine, hscreen⟩ := machine.turnAt_eq_polled shell n
  intro here turn
  rw [hresult, hmachine, hscreen, polled_of_gone _ _ hgone]
  exact ⟨rfl, rfl, rfl⟩

/-- Behind any number of cycles the machine stands where direct steps with the lent keypads
have brought the processor, and its screen shows their picture. -/
theorem reached_eq_drive (cpu : Cpu) (shell : σ) (n : Nat) :
    let here := (ofCpu cpu).reached shell n
    let direct := cpu.drive (Shell.screen shell) (Keypad.lent (queue shell) n)
    here.1.cpu = direct.1 ∧ (Shell.screen here.2).pixels = direct.2.pixels := by
  induction n with
  | zero => exact ⟨rfl, rfl⟩
  | succ n ih =>
    obtain ⟨hcpu, hpixels⟩ := ih
    change (turnAt _ shell n).machine.cpu = _ ∧ (Shell.screen (turnAt _ shell n).shell).pixels = _
    cases halive : (pollAt (queue shell) n).alive with
    | true =>
      obtain ⟨-, hstep⟩ := turnAt_of_alive cpu shell halive hpixels.symm
      rw [Keypad.lent_succ, if_pos halive, Cpu.drive_concat]
      rw [hcpu] at hstep
      exact hstep
    | false =>
      obtain ⟨-, hcpu', hscreen⟩ := turnAt_of_gone (ofCpu cpu) shell halive
      rw [Keypad.lent_succ, halive, hcpu', hscreen]
      exact ⟨hcpu, hpixels⟩

end Queued

end Machine

end Chip8
