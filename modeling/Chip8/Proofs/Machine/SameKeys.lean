import Chip8.Proofs.Keypad.LastCall
import Chip8.Proofs.Machine.Resume
import Mathlib.Data.List.Forall2

/-!
# Polls that leave the same keys

A machine learns of the key events of a poll only what the keypad keeps of them, which is the
last event on each key. So the other events of a poll can be left out or replaced, and those
on different keys put in another order, without any change in what the machine does from
there on: the polls of two scripts need only agree, one by one, in whether the shell is there
and in the last events.
-/

namespace Chip8

/-- Two polls that report the shell alike, and the same last event on each key. -/
structure Poll.SameKeys (poll other : Poll) : Prop where
  /-- The shell is there in both or gone in both. -/
  alive : poll.alive = other.alive
  /-- The last events on a key leave it the same way, or there are none on it in either. -/
  last : ∀ number < 16,
    Keypad.lastDown? (poll.events.map .apply) number =
      Keypad.lastDown? (other.events.map .apply) number

/-- Two scripts that are the same but for polls that leave the same keys. -/
structure Script.SameKeys (script other : Script) : Prop where
  /-- The screen is the same. -/
  screen : script.screen = other.screen
  /-- The polls to come leave the same keys, one by one. -/
  polls : List.Forall₂ Poll.SameKeys script.polls other.polls
  /-- The requests so far are the same. -/
  log : script.log = other.log
  /-- The same screen was shown last. -/
  shown : script.shown = other.shown
  /-- Both are muted or neither is. -/
  muted : script.muted = other.muted

/-- Two turns that are the same but for the polls that are left. -/
structure Turn.SameKeys {α : Type} (turn other : Turn Script α) : Prop where
  /-- The result is the same. -/
  result : turn.result = other.result
  /-- The machine is the same, its processor and its keys. -/
  machine : turn.machine = other.machine
  /-- The script is the same but for the polls. -/
  shell : turn.shell.SameKeys other.shell

/-- Two operations that are the same but for polls that leave the same keys. -/
inductive Operation.SameKeys : Operation → Operation → Prop where
  /-- The polls that are added leave the same keys, one by one. -/
  | feed {polls others : List Poll} (h : List.Forall₂ Poll.SameKeys polls others) :
    SameKeys (.feed polls) (.feed others)
  /-- One cycle. -/
  | cycle : SameKeys .cycle .cycle
  /-- A run. -/
  | run : SameKeys .run .run

/-- Two sessions that are the same but for polls that leave the same keys. -/
structure Session.SameKeys (session other : Session) : Prop where
  /-- The machine is the same. -/
  machine : session.machine = other.machine
  /-- The script is the same but for the polls. -/
  script : session.script.SameKeys other.script

/-! ## One cycle -/

/-- Either poll may stand for the other. -/
theorem Poll.SameKeys.applyAll {poll other : Poll} (h : poll.SameKeys other) (keypad : Keypad) :
    keypad.applyAll poll.events = keypad.applyAll other.events := by
  rw [Keypad.applyAll_eq_perform, Keypad.applyAll_eq_perform]
  exact Keypad.perform_congr h.last keypad

namespace Script

variable {script other : Script}

/-- Asking for the keys makes no difference but for the polls that are left. -/
theorem SameKeys.poll (h : script.SameKeys other) :
    (Shell.poll other).1.alive = (Shell.poll script).1.alive ∧
    (∀ keypad : Keypad, keypad.applyAll (Shell.poll other).1.events =
      keypad.applyAll (Shell.poll script).1.events) ∧
    (Shell.poll other).2 = (Shell.poll script).2.mapPolls fun _ => other.polls.tail := by
  obtain ⟨screen, polls, log, shown, muted⟩ := script
  obtain ⟨screen', polls', log', shown', muted'⟩ := other
  obtain ⟨rfl, hpolls, rfl, rfl, rfl⟩ := h
  cases hpolls with
  | nil => exact ⟨rfl, fun _ => rfl, rfl⟩
  | cons hfirst _ =>
    refine ⟨hfirst.alive.symm, fun keypad => (hfirst.applyAll keypad).symm, ?_⟩
    change Script.note _ _ = (Script.note _ _).mapPolls _
    rw [hfirst.alive]
    rfl

/-- Nor does a whole cycle. -/
theorem SameKeys.cycle (h : script.SameKeys other) (machine : Machine) :
    (machine.cycle script).SameKeys (machine.cycle other) := by
  obtain ⟨halive, hkeys, hshell⟩ := h.poll
  have hcycle := (unseen_mapPolls fun _ => other.polls.tail).cycle_of_poll machine halive
    (hkeys machine.keypad) hshell
  have hpolls : List.Forall₂ Poll.SameKeys (machine.cycle script).shell.polls
      other.polls.tail := by
    rw [Machine.polls_cycle, ← List.drop_one, ← List.drop_one]
    exact List.forall₂_drop 1 h.polls
  rw [hcycle]
  exact ⟨rfl, rfl, rfl, hpolls, rfl, rfl, rfl⟩

end Script

/-! ## Many cycles -/

theorem Turn.SameKeys.stepped {turn other : Turn Script (Option Cycle)}
    (h : turn.SameKeys other) : turn.stepped = other.stepped := by
  rw [Turn.stepped, Turn.stepped, h.result]

variable {script other : Script}

/-- Two runs make the same cycles, one by one. -/
theorem Script.SameKeys.turns (h : script.SameKeys other) (machine : Machine) :
    List.Forall₂ Turn.SameKeys (machine.turns script) (machine.turns other) := by
  fun_induction Machine.turns machine script generalizing other with
  | case1 machine script cycle machine' script' heq ih =>
    have hcycle := h.cycle machine
    rw [heq] at hcycle
    rw [Machine.turns_of_stepped hcycle.result.symm, ← hcycle.machine]
    exact .cons hcycle (ih hcycle.shell)
  | case2 machine script hother =>
    have hcycle := h.cycle machine
    have hlast := hcycle.stepped ▸ Machine.stepped_eq_false hother
    rw [Machine.turns_of_not_stepped hlast]
    exact .cons hcycle .nil

/-- And they end the same way. -/
theorem Script.SameKeys.run (h : script.SameKeys other) (machine : Machine) :
    (machine.run script).SameKeys (machine.run other) := by
  fun_induction Machine.run machine script generalizing other with
  | case1 machine script cycle machine' script' heq ih =>
    have hcycle := h.cycle machine
    rw [heq] at hcycle
    rw [Machine.run_of_stepped hcycle.result.symm, ← hcycle.machine]
    exact ih hcycle.shell
  | case2 machine script machine' script' heq | case3 machine script fault machine' script' heq =>
    have hcycle := h.cycle machine
    rw [heq] at hcycle
    rw [Machine.run_of_not_stepped (hcycle.stepped ▸ rfl), ← hcycle.result]
    exact ⟨rfl, hcycle.machine, hcycle.shell⟩

namespace Session

variable {session other : Session} {operation alternative : Operation}

/-- An operation makes the same cycles, and leaves the same session. -/
theorem SameKeys.after (h : session.SameKeys other) (hop : operation.SameKeys alternative) :
    List.Forall₂ Turn.SameKeys (session.turns operation) (other.turns alternative) ∧
      (session.after operation).SameKeys (other.after alternative) := by
  obtain ⟨machine, script⟩ := session
  obtain ⟨machine', script'⟩ := other
  obtain ⟨rfl, hscript⟩ := h
  cases hop with
  | feed hmore =>
    have hpolls := List.rel_append hscript.polls hmore
    exact ⟨.nil, rfl, hscript.screen, hpolls, hscript.log, hscript.shown, hscript.muted⟩
  | cycle =>
    have hcycle := hscript.cycle machine
    exact ⟨.cons hcycle .nil, hcycle.machine, hcycle.shell⟩
  | run =>
    have hrun := hscript.run machine
    exact ⟨hscript.turns machine, hrun.machine, hrun.shell⟩

/-- So do operations one after another. -/
theorem SameKeys.perform {operations others : List Operation} (h : session.SameKeys other)
    (hops : List.Forall₂ Operation.SameKeys operations others) :
    List.Forall₂ Turn.SameKeys (session.trace operations) (other.trace others) ∧
      (session.perform operations).SameKeys (other.perform others) := by
  induction hops generalizing session other with
  | nil => exact ⟨.nil, h⟩
  | cons hop _ ih =>
    obtain ⟨hturns, hafter⟩ := h.after hop
    obtain ⟨htrace, hperform⟩ := ih hafter
    exact ⟨List.rel_append hturns htrace, hperform⟩

/-- A keypad that was empty at first holds the last call on each key, where a key is known by
the low half of a byte: a key is down just if some call is about it and the last one puts it
down. The lowest key is the least of the sixteen that is down, and there is none just if
none is down. Two lists of calls lead to the same keypad just if the last ones leave each key
the same way, a key without calls being up, so neighbours about different keys may change
places. Hence to every program two sessions are the same in which the same is done but for
the events of the polls, as long as these agree one by one in whether the shell is there and
in the last event on each key: cycle for cycle they have the same results, machines, screens
and logs, and the runs end the same way. -/
theorem keypad_holds_last_events (calls : List Keypad.Call) (rom : Rom) (random : Random)
    (muted : Bool) (operations : List Operation) :
    let keypad := Keypad.empty.perform calls
    let session := start rom random muted
    (∀ key, keypad.isDown key = true ↔
      ∃ earlier call later, calls = earlier ++ call :: later ∧
        call.key.toNat % 16 = key.toNat % 16 ∧ call.down = true ∧
        ∀ other ∈ later, other.key.toNat % 16 ≠ key.toNat % 16) ∧
    (∀ key, keypad.firstDown? = some key ↔
      key.toNat < 16 ∧ keypad.isDown key = true ∧
        ∀ lower, lower < key → keypad.isDown lower = false) ∧
    (keypad.firstDown? = none ↔ ∀ key, keypad.isDown key = false) ∧
    (∀ others, keypad = Keypad.empty.perform others ↔
      ∀ number < 16,
        (Keypad.lastDown? calls number).getD false =
          (Keypad.lastDown? others number).getD false) ∧
    (∀ earlier call other later, calls = earlier ++ call :: other :: later →
      call.key.toNat % 16 ≠ other.key.toNat % 16 →
      keypad = Keypad.empty.perform (earlier ++ other :: call :: later)) ∧
    (∀ others, List.Forall₂ Operation.SameKeys operations others →
      List.Forall₂ Turn.SameKeys (session.trace operations) (session.trace others) ∧
        (session.perform operations).SameKeys (session.perform others)) ∧
    (∀ (machine : Machine) (script other : Script), script.SameKeys other →
      (machine.run script).SameKeys (machine.run other)) := by
  intro keypad session
  have hsame : session.SameKeys session := ⟨rfl, rfl, .nil, rfl, rfl, rfl⟩
  refine ⟨fun _ => Keypad.isDown_perform_empty_iff, fun _ => Keypad.firstDown?_eq_some_iff,
    Keypad.firstDown?_eq_none_iff, Keypad.perform_empty_eq_iff calls, ?_,
    fun _ => hsame.perform, fun machine _ _ h => h.run machine⟩
  intro earlier call other later hcalls hkeys
  simp only [keypad, hcalls]
  exact Keypad.perform_swap Keypad.empty earlier later hkeys

end Session

end Chip8
