import Chip8.Proofs.Machine.Polls

/-!
# The shown screen

Until a step is made nothing is shown, and the screen stays blank. The first step finds
it dirty, so it is shown right away, and from then on the script has always shown the
screen as it is: a step that writes to it leaves it dirty, so that it is shown at the end
of the cycle, and a cycle without a step does not touch it.
-/

namespace Chip8

namespace Script

/-- The screen was shown as it is, and nothing was written to it since. -/
structure UpToDate (script : Script) : Prop where
  /-- Nothing was written to the screen since it was last shown. -/
  clean : script.screen.dirty = false
  /-- What was shown last is the screen. -/
  shown : script.shown = some script.screen

/-- Nothing was shown yet, and there is nothing to see. -/
structure Untouched (script : Script) : Prop where
  /-- The screen is blank. -/
  blank : script.screen = Screen.blank
  /-- No screen was shown. -/
  shown : script.shown = none
  /-- The script was not asked to show one. -/
  undrawn : .drew ∉ script.log

/-- How a script stands, by whether a step was made with it. -/
def Settled (script : Script) : Bool → Prop
  | true => script.UpToDate
  | false => script.Untouched

variable {script : Script} {made : Bool}

/-- Being asked for the keys shows nothing. -/
theorem Settled.poll (h : script.Settled made) : (Shell.poll script).2.Settled made := by
  have hscreen : (Shell.poll script).2.screen = script.screen := Queued.screen_poll script
  have hshown : (Shell.poll script).2.shown = script.shown := by
    change script.poll.2.shown = _
    unfold Script.poll
    split <;> rfl
  cases made with
  | true => exact ⟨hscreen ▸ h.clean, hscreen ▸ hshown ▸ h.shown⟩
  | false =>
    refine ⟨hscreen ▸ h.blank, hshown ▸ h.shown, ?_⟩
    change .drew ∉ script.poll.2.log
    have hundrawn := h.undrawn
    unfold Script.poll
    split
    · simpa [note] using hundrawn
    · split <;> simpa [note] using hundrawn

theorem Settled.feed (h : script.Settled made) (polls : List Poll) :
    (script.feed polls).Settled made := by
  cases made with
  | true => exact ⟨h.clean, h.shown⟩
  | false => exact ⟨h.blank, h.shown, h.undrawn⟩

/-- What was not shown yet is dirty. -/
theorem Settled.dirty_or_shown (h : script.Settled made) :
    script.screen.dirty = true ∨ script.shown = some script.screen := by
  cases made with
  | true => exact .inr h.shown
  | false =>
    left
    rw [h.blank]
    rfl

/-- Whatever is dirty is shown when the screen is presented. -/
theorem upToDate_present (h : script.screen.dirty = true ∨ script.shown = some script.screen) :
    (Machine.present script).UpToDate := by
  unfold Machine.present
  split
  · exact ⟨rfl, rfl⟩
  · next hclean => exact ⟨Bool.eq_false_iff.mpr hclean, h.resolve_left hclean⟩

theorem shown_sound (cycle : Cycle) (script : Script) :
    (Machine.sound cycle script).shown = script.shown := by
  unfold Machine.sound
  split
  · change script.beep.shown = script.shown
    unfold Script.beep
    split <;> rfl
  · rfl

/-- A cycle shows the screen if a step is made in it, and else leaves it alone. -/
theorem Settled.cycle (h : script.Settled made) (machine : Machine) :
    (machine.cycle script).shell.Settled (made || (machine.cycle script).stepped) := by
  have hpolled := h.poll
  obtain ⟨-, hcycle⟩ | ⟨-, fault, -, hcycle⟩ | ⟨-, cycle, cpu, screen, hstep, hcycle⟩ :=
    machine.cycle_cases script
  · simpa only [hcycle, Turn.stepped, Bool.or_false] using hpolled
  · have hsame : Shell.withScreen (Shell.poll script).2 (Shell.screen (Shell.poll script).2) =
        (Shell.poll script).2 := rfl
    simpa only [hcycle, hsame, Turn.stepped, Bool.or_false] using hpolled
  · simp only [hcycle, Turn.stepped, Bool.or_true]
    apply upToDate_present
    have hscreen : (Machine.sound cycle (Shell.withScreen (Shell.poll script).2 screen)).screen =
        screen := Machine.screen_sound cycle (Shell.withScreen (Shell.poll script).2 screen)
    rw [hscreen, shown_sound]
    have hwritten := Cpu.screen_step (Shell.screen (Shell.poll script).2)
      (machine.keypad.applyAll (Shell.poll script).1.events) machine.cpu
    rw [hstep] at hwritten
    rcases hwritten with hkept | hdirty
    · -- A screen that the step left alone was still dirty from the start, or is shown already.
      change screen = _ at hkept
      rw [hkept]
      exact hpolled.dirty_or_shown
    · exact .inl hdirty

end Script

theorem Script.Settled.upToDate {script : Script} {turns : List (Turn Script (Option Cycle))}
    (h : script.Settled (turns.any Turn.stepped)) (hmade : ∃ turn ∈ turns, turn.stepped = true) :
    script.UpToDate := by
  rw [List.any_eq_true.mpr hmade] at h
  exact h

theorem Script.Settled.untouched {script : Script} {turns : List (Turn Script (Option Cycle))}
    (h : script.Settled (turns.any Turn.stepped)) (hnone : ∀ turn ∈ turns, turn.stepped = false) :
    script.Untouched := by
  have hfalse : turns.any Turn.stepped = false := by simpa using hnone
  rw [hfalse] at h
  exact h

/-- The scripts that the given cycles leave behind are settled, one after another. -/
def Settles : Bool → List (Turn Script (Option Cycle)) → Prop
  | _, [] => True
  | made, turn :: turns =>
    turn.shell.Settled (made || turn.stepped) ∧ Settles (made || turn.stepped) turns

theorem settles_append {made : Bool} {first second : List (Turn Script (Option Cycle))} :
    Settles made (first ++ second) ↔
      Settles made first ∧ Settles (made || first.any Turn.stepped) second := by
  induction first generalizing made with
  | nil => simp [Settles]
  | cons turn turns ih =>
    simp only [List.cons_append, Settles, ih, List.any_cons, and_assoc, Bool.or_assoc]

/-- The cycles before one of them tell how its script stands. -/
theorem settled_of_settles {made : Bool} {earlier later : List (Turn Script (Option Cycle))}
    {turn : Turn Script (Option Cycle)} (h : Settles made (earlier ++ turn :: later)) :
    turn.shell.Settled (made || (earlier ++ [turn]).any Turn.stepped) := by
  have hturn := (settles_append.mp h).2.1
  rw [Bool.or_assoc] at hturn
  simpa only [List.any_append, List.any_cons, List.any_nil, Bool.or_false] using hturn

/-- The cycles of a run settle the script one after another. -/
theorem settles_run {script : Script} {made : Bool} (h : script.Settled made) (machine : Machine) :
    Settles made (machine.turns script) := by
  fun_induction Machine.turns machine script generalizing made with
  | case1 machine script cycle machine' script' heq ih =>
    have hcycle := h.cycle machine
    rw [heq] at hcycle
    exact ⟨hcycle, ih hcycle⟩
  | case2 machine script _ => exact ⟨h.cycle machine, trivial⟩

namespace Session

variable {session : Session} {made : Bool}

/-- An operation settles the script in each of its cycles, and leaves it settled. -/
theorem settles_turns (h : session.script.Settled made) (operation : Operation) :
    Settles made (session.turns operation) ∧
      (session.after operation).script.Settled
        (made || (session.turns operation).any Turn.stepped) := by
  cases operation with
  | feed polls =>
    simp only [turns, after, Settles, List.any_nil, Bool.or_false, true_and]
    exact h.feed polls
  | cycle =>
    have hcycle := h.cycle session.machine
    simp only [turns, after, Settles, List.any_cons, List.any_nil, Bool.or_false, and_true]
    exact ⟨hcycle, hcycle⟩
  | run =>
    have hrun := settles_run h session.machine
    obtain ⟨first, last, hturns, -, -, heq⟩ := session.machine.exists_turns_eq session.script
    refine ⟨hrun, ?_⟩
    simp only [turns, after, heq]
    rw [hturns] at hrun ⊢
    exact settled_of_settles hrun

/-- So does a sequence of operations. -/
theorem settles_trace (h : session.script.Settled made) (operations : List Operation) :
    Settles made (session.trace operations) ∧
      (session.perform operations).script.Settled
        (made || (session.trace operations).any Turn.stepped) := by
  induction operations generalizing session made with
  | nil => exact ⟨trivial, by simpa [trace, perform] using h⟩
  | cons operation operations ih =>
    obtain ⟨hturns, hafter⟩ := settles_turns h operation
    obtain ⟨htrace, hperform⟩ := ih hafter
    refine ⟨settles_append.mpr ⟨hturns, htrace⟩, ?_⟩
    rw [trace, List.any_append, ← Bool.or_assoc]
    exact hperform

/-- In every session, whatever its operations: behind each cycle in which a step was made,
and behind every later cycle, whether its shell was gone or its step refused, the screen
is not dirty and what was shown last is the screen. Up to the first step nothing was shown
and the screen is blank. The same holds when the operations are over. -/
theorem shown_screen_up_to_date (rom : Rom) (random : Random) (muted : Bool)
    (operations : List Operation) :
    let session := start rom random muted
    (∀ earlier turn later, session.trace operations = earlier ++ turn :: later →
      ((∃ past ∈ earlier ++ [turn], past.stepped = true) → turn.shell.UpToDate) ∧
      ((∀ past ∈ earlier ++ [turn], past.stepped = false) → turn.shell.Untouched)) ∧
    ((∃ past ∈ session.trace operations, past.stepped = true) →
      (session.perform operations).script.UpToDate) ∧
    ((∀ past ∈ session.trace operations, past.stepped = false) →
      (session.perform operations).script.Untouched) := by
  intro session
  have hstart : session.script.Settled false := ⟨rfl, rfl, List.not_mem_nil⟩
  obtain ⟨htrace, hperform⟩ := settles_trace hstart operations
  rw [Bool.false_or] at hperform
  refine ⟨?_, hperform.upToDate, hperform.untouched⟩
  intro earlier turn later heq
  rw [heq] at htrace
  have hturn := settled_of_settles htrace
  rw [Bool.false_or] at hturn
  exact ⟨hturn.upToDate, hturn.untouched⟩

end Session

end Chip8
