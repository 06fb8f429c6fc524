import Chip8.Machine.Basic
import Chip8.Proofs.Cpu.Progress

/-!
# Refused steps

Whether a step is refused, and with which fault, is decided by the processor alone. A
refused step changes nothing, so the processor meets the same fault at every later step,
whatever screen and keypad it is lent, and a machine with this processor answers with
the fault as long as its shell is there.
-/

namespace Chip8

namespace Cpu

/-- The fault at which the next step is refused, if it is. -/
def fault? (cpu : Cpu) : Option Fault :=
  match cpu.fetch with
  | .error fault => some fault
  | .ok opcode =>
    match Instruction.decode? opcode with
    | none => some (.unknownOpcode opcode cpu.counter)
    | some instruction => cpu.refusal? instruction

/-- No instruction is refused for being unknown. -/
theorem refusal?_ne_unknownOpcode {cpu : Cpu} {instruction : Instruction}
    {opcode address : UInt16} :
    cpu.refusal? instruction ≠ some (.unknownOpcode opcode address) := by
  intro h
  have hread : ∀ length, Memory.readFault? cpu.index length ≠
      some (.unknownOpcode opcode address) := by
    intro length hread
    simp [Memory.readFault?, Memory.rangeFault] at hread
  cases instruction with
  | ret | call => simp [refusal?] at h
  | draw | load => exact hread _ h
  | storeDecimal | store =>
    simp only [refusal?, Memory.writeFault?] at h
    split at h
    · cases h
    · exact hread _ h
  | _ => cases h

/-- No fetch fails because an opcode is unknown. -/
theorem fetch_ne_unknownOpcode {cpu : Cpu} {opcode address : UInt16} :
    cpu.fetch ≠ .error (.unknownOpcode opcode address) := by
  intro h
  have hread := Memory.word_eq_error_iff.mp h
  simp [Memory.readFault?, Memory.rangeFault] at hread

variable {cpu : Cpu} {fault : Fault} (screen : Screen) (keypad : Keypad)

/-- In front of a fault a step is refused and leaves everything as it is. -/
theorem step_of_fault? (h : cpu.fault? = some fault) :
    cpu.step screen keypad = ⟨.error fault, cpu, screen⟩ := by
  unfold fault? at h
  cases hfetch : cpu.fetch with
  | error cause =>
    simp only [hfetch, Option.some.injEq] at h
    simp only [step, hfetch, h]
  | ok opcode =>
    cases hdecode : Instruction.decode? opcode with
    | none =>
      simp only [hfetch, hdecode, Option.some.injEq] at h
      simp only [step, hfetch, hdecode, h]
    | some instruction =>
      simp only [hfetch, hdecode] at h
      exact step_of_refusal? screen keypad (peek_eq_some_iff.mpr ⟨opcode, hfetch, hdecode⟩) h

/-- The processor alone decides whether a step is refused, and with which fault. -/
theorem step_result_eq_error_iff :
    (cpu.step screen keypad).result = .error fault ↔ cpu.fault? = some fault := by
  unfold fault?
  cases hfetch : cpu.fetch with
  | error cause => simp [step, hfetch]
  | ok opcode =>
    cases hdecode : Instruction.decode? opcode with
    | none => simp [step, hfetch, hdecode]
    | some instruction =>
      simp only [hdecode]
      exact result_eq_error_iff_of_peek screen keypad
        (peek_eq_some_iff.mpr ⟨opcode, hfetch, hdecode⟩)

/-- In front of a fault every step of a run is refused in the same way. -/
theorem outcomes_of_fault? (h : cpu.fault? = some fault) (loans : List Loan) :
    cpu.run loans = cpu ∧
      cpu.outcomes loans = loans.map fun loan => ⟨.error fault, cpu, loan.screen⟩ := by
  have hstep : ∀ loan, cpu.outcome loan = ⟨.error fault, cpu, loan.screen⟩ := fun loan =>
    step_of_fault? loan.screen loan.keypad h
  have hafter : ∀ loan, cpu.after loan = cpu := fun loan => by rw [after, hstep]
  induction loans with
  | nil => exact ⟨rfl, rfl⟩
  | cons loan loans ih =>
    constructor
    · rw [run_cons, hafter]
      exact ih.1
    · rw [outcomes, hafter, hstep, ih.2]
      rfl

/-- What is known of the instruction to come tells what kind of fault there is. -/
theorem peek_of_fault? (h : cpu.fault? = some fault) :
    (cpu.peek = .error fault ↔ ∃ cause, cpu.fetch = .error cause) ∧
      (cpu.peek = .ok none ↔ ∃ opcode address, fault = .unknownOpcode opcode address) ∧
      ∀ instruction, cpu.peek = .ok (some instruction) → cpu.refusal? instruction = some fault := by
  unfold fault? at h
  cases hfetch : cpu.fetch with
  | error cause =>
    simp only [hfetch, Option.some.injEq] at h
    subst h
    have hpeek : cpu.peek = .error cause := by rw [peek, hfetch]; rfl
    refine ⟨by simp [hpeek], ?_, by simp [hpeek]⟩
    simp only [hpeek, reduceCtorEq, false_iff, not_exists]
    rintro opcode address rfl
    exact fetch_ne_unknownOpcode hfetch
  | ok opcode =>
    have hpeek : cpu.peek = .ok (Instruction.decode? opcode) := by rw [peek, hfetch]; rfl
    cases hdecode : Instruction.decode? opcode with
    | none =>
      simp only [hfetch, hdecode, Option.some.injEq] at h
      simp [hpeek, hdecode, ← h]
    | some instruction =>
      simp only [hfetch, hdecode] at h
      refine ⟨by simp [hpeek], ?_, ?_⟩
      · simp only [hpeek, hdecode, Except.ok.injEq, reduceCtorEq, false_iff, not_exists]
        rintro opcode address rfl
        exact refusal?_ne_unknownOpcode h
      · intro other hother
        rw [hpeek, hdecode] at hother
        cases hother
        exact h

end Cpu

namespace Machine

variable {σ : Type} [Shell σ]

/-- The machine after one cycle with each of the given shells. -/
def afterCycles (machine : Machine) (shells : List σ) : Machine :=
  shells.foldl (fun machine shell => (machine.cycle shell).machine) machine

/-- In front of a fault a machine keeps its processor and answers with the fault as long
as its shell is there. -/
theorem cycle_of_fault? {machine : Machine} {fault : Fault}
    (h : machine.cpu.fault? = some fault) (shell : σ) :
    (machine.cycle shell).machine.cpu = machine.cpu ∧
      (machine.cycle shell).result =
        if (Shell.poll shell).1.alive then .error fault else .ok none := by
  unfold cycle
  dsimp only
  split
  · rw [Cpu.step_of_fault? _ _ h]
    exact ⟨rfl, rfl⟩
  · exact ⟨rfl, rfl⟩

/-- In front of a fault no cycle gets the processor away from it. -/
theorem cpu_afterCycles_of_fault? {machine : Machine} {fault : Fault}
    (h : machine.cpu.fault? = some fault) (shells : List σ) :
    (machine.afterCycles shells).cpu = machine.cpu := by
  induction shells generalizing machine with
  | nil => rfl
  | cons shell shells ih =>
    have hcpu := (cycle_of_fault? h shell).1
    exact (ih (hcpu.symm ▸ h)).trans hcpu

end Machine

/-- A refused step leaves processor and screen exactly as they were. Every later step is
refused with the same fault and again changes nothing, whatever it is lent, and so is
every cycle of a machine whose shell is there, whatever happened to its keys. What is
known of the instruction to come agrees with the fault: nothing just when the fetch
failed, that there is none just when the opcode is unknown, and else the very
instruction that is refused. -/
theorem refused_step_is_final {cpu : Cpu} {screen : Screen} {keypad : Keypad} {fault : Fault}
    (h : (cpu.step screen keypad).result = .error fault) :
    ((cpu.step screen keypad).cpu = cpu ∧ (cpu.step screen keypad).screen = screen) ∧
    (∀ loans : List Loan, cpu.run loans = cpu ∧
      cpu.outcomes loans = loans.map fun loan => ⟨.error fault, cpu, loan.screen⟩) ∧
    (∀ {σ : Type} [Shell σ] (keys : Keypad) (shells : List σ) (shell : σ),
      ((Machine.mk cpu keys).afterCycles shells).cpu = cpu ∧
      (((Machine.mk cpu keys).afterCycles shells).cycle shell).result =
        if (Shell.poll shell).1.alive then .error fault else .ok none) ∧
    (cpu.peek = .error fault ↔ ∃ cause, cpu.fetch = .error cause) ∧
    (cpu.peek = .ok none ↔ ∃ opcode address, fault = .unknownOpcode opcode address) ∧
    ((∀ cause, cpu.fetch ≠ .error cause) →
      (∀ opcode address, fault ≠ .unknownOpcode opcode address) →
      ∃ instruction, cpu.peek = .ok (some instruction) ∧
        cpu.execute screen keypad instruction = ⟨.error fault, cpu, screen⟩) := by
  have hfault := (Cpu.step_result_eq_error_iff screen keypad).mp h
  obtain ⟨hfetch, hunknown, hrefusal⟩ := Cpu.peek_of_fault? hfault
  refine ⟨?_, Cpu.outcomes_of_fault? hfault, ?_, hfetch, hunknown, ?_⟩
  · rw [Cpu.step_of_fault? screen keypad hfault]
    exact ⟨rfl, rfl⟩
  · intro σ _ keys shells shell
    have hmachine : (Machine.mk cpu keys).cpu.fault? = some fault := hfault
    have hcpu := Machine.cpu_afterCycles_of_fault? hmachine shells
    exact ⟨hcpu, (Machine.cycle_of_fault? (hcpu.symm ▸ hmachine) shell).2⟩
  · intro hfetched hknown
    cases hpeek : cpu.peek with
    | error cause =>
      cases hopcode : cpu.fetch with
      | error cause => exact absurd hopcode (hfetched cause)
      | ok opcode =>
        rw [Cpu.peek, hopcode] at hpeek
        cases hpeek
    | ok decoded =>
      cases decoded with
      | none =>
        obtain ⟨opcode, address, hne⟩ := hunknown.mp hpeek
        exact absurd hne (hknown opcode address)
      | some instruction =>
        exact ⟨instruction, rfl, Cpu.execute_of_refusal? screen keypad (hrefusal _ hpeek)⟩

/-- A store of four registers at `0x04E` would touch two bytes of a glyph. It is refused
for good, the two bytes behind the glyphs included. -/
theorem store_over_glyph_is_final :
    let cpu := (Cpu.ofSeed ⟨[0xA0, 0x4E, 0xF3, 0x55], by decide⟩ 0).run
      [⟨Screen.blank, Keypad.empty⟩]
    (cpu.step Screen.blank Keypad.empty).result = .error (.fontOverwrite 0x04E) ∧
      (cpu.step Screen.blank Keypad.empty).cpu = cpu := by
  have hfault : Cpu.fault? ((Cpu.ofSeed ⟨[0xA0, 0x4E, 0xF3, 0x55], by decide⟩ 0).run
      [⟨Screen.blank, Keypad.empty⟩]) = some (.fontOverwrite 0x04E) := by decide +kernel
  have hstep := (Cpu.step_result_eq_error_iff Screen.blank Keypad.empty).mpr hfault
  exact ⟨hstep, (refused_step_is_final hstep).1.1⟩

end Chip8
