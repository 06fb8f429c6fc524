import Chip8.Machine.Session
import Chip8.Proofs.Cpu.Picture

/-!
# Cycles and runs

A cycle comes to one of three things: the shell is gone, the step is refused, or the step
is made and the shell is told. A run makes cycles of the third kind and then one of the
other two, after which it stops.
-/

namespace Chip8

theorem Turn.stepped_iff {σ : Type} {turn : Turn σ (Option Cycle)} :
    turn.stepped = true ↔ ∃ cycle, turn.result = .ok (some cycle) := by
  unfold stepped
  split
  · next cycle h => simp [h]
  · next h => simpa using fun cycle => h cycle

namespace Machine

/-- What a cycle comes to. -/
theorem cycle_cases {σ : Type} [Shell σ] (machine : Machine) (shell : σ) :
    let polled := (Shell.poll shell).2
    let keypad := machine.keypad.applyAll (Shell.poll shell).1.events
    ((Shell.poll shell).1.alive = false ∧
      machine.cycle shell = ⟨.ok none, ⟨machine.cpu, keypad⟩, polled⟩) ∨
    ((Shell.poll shell).1.alive = true ∧ ∃ fault,
      machine.cpu.step (Shell.screen polled) keypad =
        ⟨.error fault, machine.cpu, Shell.screen polled⟩ ∧
      machine.cycle shell = ⟨.error fault, ⟨machine.cpu, keypad⟩,
        Shell.withScreen polled (Shell.screen polled)⟩) ∨
    ((Shell.poll shell).1.alive = true ∧ ∃ cycle cpu screen,
      machine.cpu.step (Shell.screen polled) keypad = ⟨.ok cycle, cpu, screen⟩ ∧
      machine.cycle shell = ⟨.ok (some cycle), ⟨cpu, keypad⟩,
        present (sound cycle (Shell.withScreen polled screen))⟩) := by
  intro polled keypad
  cases halive : (Shell.poll shell).1.alive with
  | false =>
    left
    refine ⟨rfl, ?_⟩
    simp only [cycle, halive]
    rfl
  | true =>
    right
    rcases hstep : machine.cpu.step (Shell.screen polled) keypad with ⟨result, cpu, screen⟩
    cases result with
    | error fault =>
      left
      have hfault := (Cpu.step_result_eq_error_iff _ _).mp (congrArg Outcome.result hstep)
      have hrefused := Cpu.step_of_fault? (Shell.screen polled) keypad hfault
      rw [hrefused] at hstep
      cases hstep
      refine ⟨rfl, fault, rfl, ?_⟩
      simp only [cycle, halive]
      rw [hrefused]
      rfl
    | ok made =>
      right
      refine ⟨rfl, made, cpu, screen, rfl, ?_⟩
      simp only [cycle, halive]
      rw [hstep]
      rfl

/-! ## Runs -/

/-- A cycle of another form than that of a step makes none. -/
theorem stepped_eq_false {machine : Machine} {script : Script}
    (h : ∀ cycle machine' script',
      machine.cycle script = ⟨.ok (some cycle), machine', script'⟩ → False) :
    (machine.cycle script).stepped = false := by
  rw [Bool.eq_false_iff]
  intro hstepped
  obtain ⟨cycle, hresult⟩ := Turn.stepped_iff.mp hstepped
  exact h cycle _ _ (by rw [← hresult])

/-- A run goes on behind a cycle in which a step was made. -/
theorem run_of_stepped {machine : Machine} {script : Script} {cycle : Cycle}
    (h : (machine.cycle script).result = .ok (some cycle)) :
    machine.run script = (machine.cycle script).machine.run (machine.cycle script).shell := by
  rw [run]
  split
  · next hcycle => rw [hcycle]
  · next hcycle => simp [hcycle] at h
  · next hcycle => simp [hcycle] at h

/-- A run ends with the first cycle in which no step was made. -/
theorem run_of_not_stepped {machine : Machine} {script : Script}
    (h : (machine.cycle script).stepped = false) :
    machine.run script =
      ⟨(machine.cycle script).result.map fun _ => (), (machine.cycle script).machine,
        (machine.cycle script).shell⟩ := by
  rw [run]
  split
  · next hcycle => simp [hcycle, Turn.stepped] at h
  · next hcycle => rw [hcycle]; rfl
  · next hcycle => rw [hcycle]; rfl

/-- The cycles of a run go on in the same way. -/
theorem turns_of_stepped {machine : Machine} {script : Script} {cycle : Cycle}
    (h : (machine.cycle script).result = .ok (some cycle)) :
    machine.turns script =
      machine.cycle script :: (machine.cycle script).machine.turns (machine.cycle script).shell := by
  rw [turns]
  split
  · next hcycle => rw [hcycle]
  · next hother => exact (hother cycle _ _ (by rw [← h])).elim

/-- And they end in the same way. -/
theorem turns_of_not_stepped {machine : Machine} {script : Script}
    (h : (machine.cycle script).stepped = false) :
    machine.turns script = [machine.cycle script] := by
  rw [turns]
  split
  · next hcycle => simp [hcycle, Turn.stepped] at h
  · rfl

/-- A run makes steps until one is refused or the shell is gone, and ends as that cycle
does. -/
theorem exists_turns_eq (machine : Machine) (script : Script) :
    ∃ made last, machine.turns script = made ++ [last] ∧
      (∀ turn ∈ made, turn.stepped = true) ∧ last.stepped = false ∧
      machine.run script = ⟨last.result.map fun _ => (), last.machine, last.shell⟩ := by
  fun_induction turns machine script with
  | case1 machine script cycle machine' script' h ih =>
    obtain ⟨made, last, hturns, hmade, hlast, hrun⟩ := ih
    refine ⟨⟨.ok (some cycle), machine', script'⟩ :: made, last, ?_, ?_, hlast, ?_⟩
    · rw [hturns, List.cons_append]
    · intro turn hturn
      rcases List.mem_cons.mp hturn with rfl | hrest
      · rfl
      · exact hmade turn hrest
    · rw [run_of_stepped (congrArg Turn.result h), h, hrun]
  | case2 machine script h =>
    have hlast := stepped_eq_false h
    exact ⟨[], machine.cycle script, rfl, by simp, hlast, run_of_not_stepped hlast⟩

end Machine

end Chip8
