import Chip8.Proofs.Machine.Polls

/-!
# Runs and their continuation

A run is cycle after cycle up to the first in which no step is made, and it takes no poll
behind this one. When the polls are used up the run ends without a trace but for one line
in the log, so it makes no difference whether more polls are there from the beginning or
are only added then.
-/

namespace Chip8

/-- The same turn with another shell. -/
def Turn.mapShell {σ τ α : Type} (f : σ → τ) (turn : Turn σ α) : Turn τ α :=
  ⟨turn.result, turn.machine, f turn.shell⟩

/-- A run that ends with a cycle has its result, machine and shell. -/
def Turn.ending {σ α : Type} (turn : Turn σ α) : Turn σ Unit :=
  ⟨turn.result.map fun _ => (), turn.machine, turn.shell⟩

/-- A change of a shell that a machine notices at most when it asks for the keys. -/
structure Unseen {σ : Type} [Shell σ] (f : σ → σ) : Prop where
  /-- The screen stays the same. -/
  screen : ∀ shell, Shell.screen (f shell) = Shell.screen shell
  /-- The screen can be replaced before or afterwards. -/
  withScreen : ∀ shell screen, Shell.withScreen (f shell) screen = f (Shell.withScreen shell screen)
  /-- The screen can be shown before or afterwards. -/
  draw : ∀ shell, Shell.draw (f shell) = f (Shell.draw shell)
  /-- The tone can sound before or afterwards. -/
  beep : ∀ shell, Shell.beep (f shell) = f (Shell.beep shell)

namespace Unseen

variable {σ : Type} [Shell σ] {f : σ → σ}

theorem sound (h : Unseen f) (cycle : Cycle) (shell : σ) :
    Machine.sound cycle (f shell) = f (Machine.sound cycle shell) := by
  unfold Machine.sound
  split
  · exact h.beep shell
  · rfl

theorem present (h : Unseen f) (shell : σ) :
    Machine.present (f shell) = f (Machine.present shell) := by
  unfold Machine.present
  rw [h.screen]
  split
  · rw [h.withScreen, h.draw]
  · rfl

/-- Two shells that are both there or both gone, leave the keys the same, and differ by such a
change when they have been asked, make the same cycle. -/
theorem cycle_of_poll (h : Unseen f) (machine : Machine) {shell other : σ}
    (halive : (Shell.poll other).1.alive = (Shell.poll shell).1.alive)
    (hkeys : machine.keypad.applyAll (Shell.poll other).1.events =
      machine.keypad.applyAll (Shell.poll shell).1.events)
    (hshell : (Shell.poll other).2 = f (Shell.poll shell).2) :
    machine.cycle other = (machine.cycle shell).mapShell f := by
  obtain ⟨hthere, hcycle⟩ | ⟨hthere, fault, hstep, hcycle⟩ |
    ⟨hthere, cycle, cpu, screen, hstep, hcycle⟩ := machine.cycle_cases shell
  · rw [hcycle]
    simp [Machine.cycle, halive, hkeys, hshell, hthere, Turn.mapShell]
  · rw [hcycle]
    simp [Machine.cycle, halive, hkeys, hshell, hthere, h.screen, hstep, h.withScreen,
      Turn.mapShell]
  · rw [hcycle]
    simp [Machine.cycle, halive, hkeys, hshell, hthere, h.screen, hstep, h.withScreen, h.sound,
      h.present, Turn.mapShell]

/-- If asking for the keys does not show the change, a whole cycle does not. -/
theorem cycle (h : Unseen f) (machine : Machine) {shell : σ}
    (hpoll : Shell.poll (f shell) = ((Shell.poll shell).1, f (Shell.poll shell).2)) :
    machine.cycle (f shell) = (machine.cycle shell).mapShell f :=
  h.cycle_of_poll machine (by rw [hpoll]) (by rw [hpoll]) (by rw [hpoll])

end Unseen

namespace Script

variable {script : Script}

/-- The script after earlier requests. -/
def withEarlier (script : Script) (earlier : List Request) : Script :=
  { script with log := earlier ++ script.log }

theorem note_withEarlier (script : Script) (earlier : List Request) (request : Request) :
    (script.withEarlier earlier).note request = (script.note request).withEarlier earlier := by
  simp only [withEarlier, note, List.append_assoc]

/-- What was asked earlier has no influence. -/
theorem unseen_withEarlier (earlier : List Request) :
    Unseen fun script => withEarlier script earlier where
  screen _ := rfl
  withScreen _ _ := rfl
  draw script := note_withEarlier { script with shown := some script.screen } earlier .drew
  beep script := by
    change (script.withEarlier earlier).beep = script.beep.withEarlier earlier
    have hmuted : (script.withEarlier earlier).muted = script.muted := rfl
    rw [beep, beep, hmuted, note_withEarlier, ← apply_ite (withEarlier · earlier)]

theorem poll_withEarlier (script : Script) (earlier : List Request) :
    Shell.poll (script.withEarlier earlier) =
      ((Shell.poll script).1, (Shell.poll script).2.withEarlier earlier) := by
  change (script.withEarlier earlier).poll = (script.poll.1, script.poll.2.withEarlier earlier)
  obtain ⟨screen, polls, log, shown, muted⟩ := script
  cases polls <;> simp [poll, withEarlier, note]

/-- The script with the polls to come changed. -/
def mapPolls (script : Script) (f : List Poll → List Poll) : Script :=
  { script with polls := f script.polls }

/-- Nor have the polls to come, as long as none is taken. -/
theorem unseen_mapPolls (f : List Poll → List Poll) : Unseen fun script => mapPolls script f where
  screen _ := rfl
  withScreen _ _ := rfl
  draw _ := rfl
  beep script := by
    change (script.mapPolls f).beep = script.beep.mapPolls f
    have hmuted : (script.mapPolls f).muted = script.muted := rfl
    have hnote : (script.mapPolls f).note .beeped = (script.note .beeped).mapPolls f := rfl
    rw [beep, beep, hmuted, hnote, ← apply_ite (mapPolls · f)]

/-- More polls are such a change. -/
theorem unseen_feed (more : List Poll) : Unseen fun script => feed script more :=
  unseen_mapPolls (· ++ more)

/-- As long as there are others, more polls do not show. -/
theorem poll_feed (h : script.polls ≠ []) (more : List Poll) :
    Shell.poll (script.feed more) = ((Shell.poll script).1, (Shell.poll script).2.feed more) := by
  change (script.feed more).poll = (script.poll.1, script.poll.2.feed more)
  obtain ⟨screen, polls, log, shown, muted⟩ := script
  cases polls with
  | nil => exact absurd rfl h
  | cons poll polls => rfl

end Script

namespace Machine

theorem cycle_withEarlier (machine : Machine) (script : Script) (earlier : List Request) :
    machine.cycle (script.withEarlier earlier) =
      (machine.cycle script).mapShell fun shell => shell.withEarlier earlier :=
  (Script.unseen_withEarlier earlier).cycle machine (script.poll_withEarlier earlier)

theorem cycle_feed (machine : Machine) {script : Script} (h : script.polls ≠ [])
    (more : List Poll) :
    machine.cycle (script.feed more) =
      (machine.cycle script).mapShell fun shell => shell.feed more :=
  (Script.unseen_feed more).cycle machine (Script.poll_feed h more)

/-- What the script was asked earlier is of no importance to a run, which only adds to it. -/
theorem run_withEarlier (machine : Machine) (script : Script) (earlier : List Request) :
    machine.run (script.withEarlier earlier) =
      (machine.run script).mapShell fun shell => shell.withEarlier earlier := by
  fun_induction run machine script with
  | case1 machine script cycle machine' script' h ih =>
    have hcycle := machine.cycle_withEarlier script earlier
    rw [h] at hcycle
    rw [run_of_stepped (congrArg Turn.result hcycle), hcycle]
    exact ih
  | case2 machine script machine' script' h | case3 machine script fault machine' script' h =>
    have hcycle := machine.cycle_withEarlier script earlier
    rw [h] at hcycle
    rw [run_of_not_stepped (by rw [hcycle]; rfl), hcycle]
    rfl

/-! ## The cycles of a run -/

/-- Behind its first cycle a machine goes on from where this cycle ended. -/
theorem reached_succ {σ : Type} [Shell σ] (machine : Machine) (shell : σ) (n : Nat) :
    machine.reached shell (n + 1) =
      (machine.cycle shell).machine.reached (machine.cycle shell).shell n := by
  induction n with
  | zero => rfl
  | succ n ih =>
    rw [reached, ih]
    rfl

theorem turnAt_succ {σ : Type} [Shell σ] (machine : Machine) (shell : σ) (n : Nat) :
    machine.turnAt shell (n + 1) =
      (machine.cycle shell).machine.turnAt (machine.cycle shell).shell n := by
  rw [turnAt, reached_succ]
  rfl

/-- The cycles of a run follow one another. -/
theorem turns_eq_map (machine : Machine) (script : Script) :
    machine.turns script =
      (List.range (machine.turns script).length).map (machine.turnAt script) := by
  fun_induction turns machine script with
  | case1 machine script cycle machine' script' h ih =>
    have hfirst : machine.turnAt script 0 = ⟨.ok (some cycle), machine', script'⟩ := h
    have hrest : machine.turnAt script ∘ Nat.succ = machine'.turnAt script' := by
      funext i
      rw [Function.comp_apply, turnAt_succ, h]
    rw [List.length_cons, List.range_succ_eq_map, List.map_cons, List.map_map, hfirst, hrest, ← ih]
  | case2 machine script _ => rfl

/-- There is at most one for each poll, and one more. -/
theorem length_turns_le (machine : Machine) (script : Script) :
    (machine.turns script).length ≤ script.polls.length + 1 := by
  fun_induction turns machine script with
  | case1 machine script cycle machine' script' h ih =>
    have hless := length_polls_lt_of_cycle (congrArg Turn.result h)
    rw [h] at hless
    exact Nat.succ_le_succ (Nat.le_trans ih hless)
  | case2 machine script _ => exact Nat.le_add_left 1 _

/-- A run is cycle after cycle, up to the first in which no step is made. -/
theorem exists_turns_eq_map (machine : Machine) (script : Script) :
    ∃ n, n ≤ script.polls.length ∧
      machine.turns script = (List.range (n + 1)).map (machine.turnAt script) ∧
      (∀ i < n, (machine.turnAt script i).stepped = true) ∧
      (machine.turnAt script n).stepped = false ∧
      machine.run script = (machine.turnAt script n).ending := by
  obtain ⟨made, last, hturns, hmade, hlast, hrun⟩ := machine.exists_turns_eq script
  have hlength := machine.length_turns_le script
  have hmap := machine.turns_eq_map script
  have hcount : (machine.turns script).length = made.length + 1 := by simp [hturns]
  rw [hcount] at hlength hmap
  -- All cycles but the last are those in front of it, in the same order.
  obtain ⟨hmade', hlast'⟩ : made = (List.range made.length).map (machine.turnAt script) ∧
      [last] = [machine.turnAt script made.length] := by
    rw [hturns, List.range_succ, List.map_append] at hmap
    exact List.append_inj hmap (by simp)
  obtain rfl := List.singleton_inj.mp hlast'
  refine ⟨made.length, Nat.le_of_succ_le_succ hlength, hmap, ?_, hlast, hrun⟩
  intro i hi
  apply hmade
  rw [hmade']
  exact List.mem_map_of_mem (List.mem_range.mpr hi)

/-! ## More polls -/

/-- Without a poll to come the shell is gone. -/
theorem cycle_of_polls_eq_nil (machine : Machine) {script : Script} (h : script.polls = []) :
    machine.cycle script = ⟨.ok none, machine, script.note .gone⟩ := by
  have hpoll : Shell.poll script = (⟨[], false⟩, script.note .gone) := by
    change script.poll = _
    rw [Script.poll, h]
  simp only [cycle, hpoll]
  rfl

/-- A shell that is there in all of its polls is gone only behind them. -/
theorem polls_eq_nil_of_gone {machine : Machine} {script : Script}
    (halive : ∀ poll ∈ script.polls, poll.alive = true)
    (hgone : (machine.cycle script).result = .ok none) : script.polls = [] := by
  refine List.eq_nil_of_length_eq_zero (Nat.eq_zero_of_not_pos fun hpos => ?_)
  have hpoll : (Shell.poll script).1 = pollAt script.polls 0 := machine.poll_reached script 0
  have hthere : (Shell.poll script).1.alive = true := hpoll ▸ alive_pollAt halive hpos
  obtain ⟨hgone', -⟩ | ⟨-, fault, -, hcycle⟩ | ⟨-, cycle, cpu, screen, -, hcycle⟩ :=
    machine.cycle_cases script
  · rw [hthere] at hgone'
    cases hgone'
  · rw [hcycle] at hgone
    cases hgone
  · rw [hcycle] at hgone
    cases hgone

/-- A run through polls that all find the shell there comes to a machine and a script from
which it goes on if there are more polls; if not, it ends there. -/
theorem exists_rest {machine : Machine} {script : Script}
    (halive : ∀ poll ∈ script.polls, poll.alive = true)
    (hresult : (machine.run script).result = .ok ()) :
    ∃ (machine' : Machine) (script' : Script),
      machine.run script = ⟨.ok (), machine', script'.note .gone⟩ ∧
      ∀ more, machine.run (script.feed more) = machine'.run (script'.feed more) := by
  fun_induction run machine script with
  | case1 machine script cycle machine' script' h ih =>
    have hne := polls_ne_nil_of_cycle (congrArg Turn.result h)
    have hpolls := polls_cycle machine script
    rw [h] at hpolls
    change script'.polls = _ at hpolls
    obtain ⟨rest, last, hrun, hmore⟩ := ih
      (fun poll hpoll => halive poll (List.mem_of_mem_tail (hpolls ▸ hpoll))) hresult
    refine ⟨rest, last, hrun, fun more => ?_⟩
    have hfeed := machine.cycle_feed hne more
    rw [h] at hfeed
    rw [run_of_stepped (congrArg Turn.result hfeed), hfeed]
    exact hmore more
  | case2 machine script machine' script' h =>
    have hnil := polls_eq_nil_of_gone halive (congrArg Turn.result h)
    rw [cycle_of_polls_eq_nil machine hnil] at h
    cases h
    exact ⟨machine, script, rfl, fun _ => rfl⟩
  | case3 machine script fault machine' script' h => cases hresult

/-- A run comes to its end on every script: it is cycle after cycle up to the first in which
no step is made, at most one for each poll and one more. It ends with the fault of this
cycle or without one, with the machine and the script that the cycle leaves behind, and
takes no poll behind those of its cycles. If all polls find the shell there and the run
ends without a fault, then a run over more polls may as well be made behind it: result,
machine and script are those of one run over all polls, but for one line in the log, where
the first run found the shell gone. -/
theorem run_comes_to_end_and_resumes (machine : Machine) (script : Script) :
    (∃ n, n ≤ script.polls.length ∧
      machine.turns script = (List.range (n + 1)).map (machine.turnAt script) ∧
      (∀ i < n, ∃ cycle, (machine.turnAt script i).result = .ok (some cycle)) ∧
      (∀ cycle, (machine.turnAt script n).result ≠ .ok (some cycle)) ∧
      machine.run script = (machine.turnAt script n).ending ∧
      (machine.run script).shell.polls = script.polls.drop (n + 1)) ∧
    ((∀ poll ∈ script.polls, poll.alive = true) → (machine.run script).result = .ok () →
      ∀ more,
        let first := machine.run script
        let second := first.machine.run (first.shell.feed more)
        let whole := machine.run (script.feed more)
        ∃ before after, first.shell.log = before ++ [.gone] ∧
          whole.shell.log = before ++ after ∧
          second = ⟨whole.result, whole.machine,
            { whole.shell with log := before ++ .gone :: after }⟩) := by
  refine ⟨?_, ?_⟩
  · obtain ⟨n, hn, hturns, hmade, hlast, hrun⟩ := machine.exists_turns_eq_map script
    refine ⟨n, hn, hturns, fun i hi => Turn.stepped_iff.mp (hmade i hi), ?_, hrun, ?_⟩
    · intro cycle hcycle
      rw [Turn.stepped_iff.mpr ⟨cycle, hcycle⟩] at hlast
      cases hlast
    · rw [hrun]
      exact machine.queue_reached script (n + 1)
  · intro halive hresult more first second whole
    obtain ⟨machine', script', hfirst, hmore⟩ := exists_rest halive hresult
    -- Both the second run and the whole one go on from here, with other logs behind them.
    let bare : Script := { script' with log := [] }.feed more
    have hwhole : whole =
        (machine'.run bare).mapShell fun shell => shell.withEarlier script'.log := by
      have hbare : bare.withEarlier script'.log = script'.feed more := by
        simp [bare, Script.withEarlier, Script.feed]
      rw [← run_withEarlier, hbare]
      exact hmore more
    have hsecond : second =
        (machine'.run bare).mapShell fun shell => shell.withEarlier (script'.log ++ [.gone]) := by
      have hbare : bare.withEarlier (script'.log ++ [.gone]) = (script'.note .gone).feed more := by
        simp [bare, Script.withEarlier, Script.feed, Script.note]
      rw [← run_withEarlier, hbare]
      simp only [second, first, hfirst]
    refine ⟨script'.log, (machine'.run bare).shell.log, ?_, ?_, ?_⟩
    · simp only [first, hfirst, Script.note]
    · rw [hwhole]
      rfl
    · rw [hsecond, hwhole]
      simp [Turn.mapShell, Script.withEarlier]

end Machine

end Chip8
