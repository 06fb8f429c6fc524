import Chip8.Proofs.Cpu.Refusal

/-!
# Steps and the picture

A step writes to the screen that it is lent only by clearing it or by drawing on it, and
either leaves it dirty. It reads nothing but the pixels. So whether the screen was shown
in the meantime makes no difference to the processor, to the result or to the picture.
-/

namespace Chip8

/-- A sprite falls on the pixels, whether or not they were shown. -/
theorem Screen.drawSprite_congr {screen other : Screen} (h : screen.pixels = other.pixels)
    (x y : Nat) (rows : List UInt8) : screen.drawSprite x y rows = other.drawSprite x y rows := by
  rw [drawSprite, drawSprite, h]

/-- Two outcomes that differ at most in whether the screen is dirty. -/
structure Outcome.Agrees {α : Type} (left right : Outcome α) : Prop where
  /-- The results are the same. -/
  result : left.result = right.result
  /-- The processors are the same. -/
  cpu : left.cpu = right.cpu
  /-- The pictures are the same. -/
  pixels : left.screen.pixels = right.screen.pixels

/-- Whether an instruction writes to the screen. -/
def Instruction.paints : Instruction → Bool
  | .clear | .draw .. => true
  | _ => false

namespace Cpu

variable {cpu : Cpu} {instruction : Instruction} (screen : Screen) (keypad : Keypad)

/-! ## What is written -/

theorem screen_execute (cpu : Cpu) (instruction : Instruction) :
    (cpu.execute screen keypad instruction).screen = screen ∨
      (cpu.execute screen keypad instruction).screen.dirty = true := by
  cases instruction with
  | clear => exact .inr rfl
  | draw x y height =>
    simp only [execute]
    split
    · exact .inr rfl
    · exact .inl rfl
  | ret | call | waitKey | storeDecimal | store | load =>
    left
    simp only [execute]
    split <;> rfl
  | _ => exact .inl rfl

/-- An instruction that is not refused leaves the screen dirty if it writes to it. -/
theorem dirty_execute (h : cpu.refusal? instruction = none) :
    (cpu.execute screen keypad instruction).screen.dirty =
      (screen.dirty || instruction.paints) := by
  cases instruction with
  | clear => exact (Bool.or_true _).symm
  | draw x y height =>
    obtain ⟨rows, hread⟩ := read_draw h
    simp only [execute, hread, Instruction.paints, Bool.or_true]
    rfl
  | ret | call | waitKey | storeDecimal | store | load =>
    simp only [execute, Instruction.paints, Bool.or_false]
    split <;> rfl
  | _ => exact (Bool.or_false _).symm

/-- In front of no fault there is an instruction to come, and it is not refused. -/
theorem exists_accepted (h : cpu.fault? = none) :
    ∃ instruction, cpu.peek = .ok (some instruction) ∧ cpu.refusal? instruction = none := by
  unfold fault? at h
  cases hfetch : cpu.fetch with
  | error fault => simp [hfetch] at h
  | ok opcode =>
    cases hdecode : Instruction.decode? opcode with
    | none => simp [hfetch, hdecode] at h
    | some instruction =>
      simp only [hfetch, hdecode] at h
      exact ⟨instruction, peek_eq_some_iff.mpr ⟨opcode, hfetch, hdecode⟩, h⟩

/-- A step that does not leave the screen as it is leaves it dirty. -/
theorem screen_step (cpu : Cpu) :
    (cpu.step screen keypad).screen = screen ∨ (cpu.step screen keypad).screen.dirty = true := by
  cases hfault : cpu.fault? with
  | some fault =>
    left
    rw [step_of_fault? screen keypad hfault]
  | none =>
    obtain ⟨instruction, hpeek, haccepted⟩ := exists_accepted hfault
    rw [step_of_accepted screen keypad hpeek haccepted]
    exact screen_execute screen keypad cpu instruction

/-! ## What is read -/

variable {screen} {other : Screen}

theorem execute_agrees (h : screen.pixels = other.pixels) (cpu : Cpu) (instruction : Instruction) :
    (cpu.execute screen keypad instruction).Agrees (cpu.execute other keypad instruction) := by
  cases instruction with
  | clear => exact ⟨rfl, rfl, rfl⟩
  | draw x y height =>
    simp only [execute]
    split
    · rw [Screen.drawSprite_congr h]
      exact ⟨rfl, rfl, rfl⟩
    · exact ⟨rfl, rfl, h⟩
  | ret | call | waitKey | storeDecimal | store | load =>
    simp only [execute]
    split <;> exact ⟨rfl, rfl, h⟩
  | _ => exact ⟨rfl, rfl, h⟩

/-- On screens with the same picture a step does the same. -/
theorem step_agrees (h : screen.pixels = other.pixels) (cpu : Cpu) :
    (cpu.step screen keypad).Agrees (cpu.step other keypad) := by
  cases hfault : cpu.fault? with
  | some fault =>
    rw [step_of_fault? screen keypad hfault, step_of_fault? other keypad hfault]
    exact ⟨rfl, rfl, h⟩
  | none =>
    obtain ⟨instruction, hpeek, haccepted⟩ := exists_accepted hfault
    obtain ⟨-, hcpu, hpixels⟩ := execute_agrees keypad h cpu instruction
    rw [step_of_accepted screen keypad hpeek haccepted,
      step_of_accepted other keypad hpeek haccepted, hcpu]
    exact ⟨rfl, rfl, hpixels⟩

end Cpu

end Chip8
