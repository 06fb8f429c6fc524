import Chip8.Proofs.Cpu.Refusal
import Mathlib.Order.Bounds.Basic

/-!
# The address that a fault names

A refused access to memory is reported by an address. A step accesses the two bytes of an
opcode and then the range that its instruction works on, and the reported address is the
lowest of them that may not be accessed. There is one exception: a sprite without rows is
refused behind the end of the memory, although nothing of it would be read.
-/

namespace Chip8

namespace Memory

/-- An address of a range. -/
def InRange (start : UInt16) (length a : Nat) : Prop :=
  start.toNat ≤ a ∧ a < start.toNat + length

variable {start : UInt16} {length : Nat}

theorem not_inRange_zero (start : UInt16) (a : Nat) : ¬InRange start 0 a :=
  fun h => Nat.not_lt.mpr h.1 h.2

/-- A range that is not empty is reported by its first address behind the end. -/
theorem isLeast_of_readFault? {address : Nat} (hpos : 0 < length)
    (h : readFault? start length = some (.memoryOutOfBounds address)) :
    IsLeast {a | InRange start length a ∧ size ≤ a} address := by
  obtain ⟨hbehind, hfault⟩ := readFault?_eq_some_iff.mp h
  obtain rfl : address = max start.toNat size := Fault.memoryOutOfBounds.inj hfault
  constructor
  · exact ⟨⟨Nat.le_max_left _ _, Nat.max_lt.mpr ⟨by omega, hbehind⟩⟩, Nat.le_max_right _ _⟩
  · rintro a ⟨⟨hstart, -⟩, hsize⟩
    exact Nat.max_le.mpr ⟨hstart, hsize⟩

/-- A store among the glyphs is reported by its first address, which is one of theirs. -/
theorem isLeast_of_writeFault? {address : UInt16} (hpos : 0 < length)
    (h : writeFault? start length = some (.fontOverwrite address)) :
    IsLeast {a | InRange start length a ∧ a < Font.stop} address.toNat := by
  obtain ⟨hlow, hfault⟩ | ⟨-, -, hfault⟩ := (writeFault?_eq_some_iff hpos).mp h
  · obtain rfl : address = start := Fault.fontOverwrite.inj hfault
    exact ⟨⟨⟨Nat.le_refl _, by omega⟩, hlow⟩, fun a ha => ha.1.1⟩
  · cases hfault

/-- What stands behind the end is reported in the same way for loads and stores. -/
theorem readFault?_of_writeFault? {address : Nat}
    (h : writeFault? start length = some (.memoryOutOfBounds address)) :
    readFault? start length = some (.memoryOutOfBounds address) := by
  unfold writeFault? at h
  split at h
  · cases h
  · exact h

end Memory

namespace Cpu

/-- The addresses that the next step accesses: the two of its opcode if they cannot be
fetched, and else those that the instruction works on. -/
def Touches (cpu : Cpu) (a : Nat) : Prop :=
  match cpu.peek with
  | .error _ => Memory.InRange cpu.counter Instruction.size a
  | .ok none => False
  | .ok (some instruction) => Memory.InRange cpu.index instruction.span a

variable {cpu : Cpu} {instruction : Instruction}

theorem touches_iff_of_peek (h : cpu.peek = .ok (some instruction)) (a : Nat) :
    cpu.Touches a ↔ Memory.InRange cpu.index instruction.span a := by
  simp only [Touches, h]

/-- An instruction that is refused because of the end works on memory up to there. -/
theorem readFault?_of_refusal? {address : Nat}
    (h : cpu.refusal? instruction = some (.memoryOutOfBounds address)) :
    Memory.readFault? cpu.index instruction.span = some (.memoryOutOfBounds address) := by
  cases instruction with
  | draw | load => exact h
  | storeDecimal | store => exact Memory.readFault?_of_writeFault? h
  | ret | call => simp [refusal?] at h
  | _ => cases h

/-- An instruction that is refused because of the glyphs stores there. -/
theorem writeFault?_of_refusal? {address : UInt16}
    (h : cpu.refusal? instruction = some (.fontOverwrite address)) :
    (∃ x, instruction = .storeDecimal x ∨ instruction = .store x) ∧
      Memory.writeFault? cpu.index instruction.span = some (.fontOverwrite address) := by
  cases instruction with
  | storeDecimal x => exact ⟨⟨x, .inl rfl⟩, h⟩
  | store x => exact ⟨⟨x, .inr rfl⟩, h⟩
  | draw | load => cases (Memory.readFault?_eq_some_iff.mp h).2
  | ret | call => simp [refusal?] at h
  | _ => cases h

/-- A sprite without rows is to be drawn, and the index is behind the end of the memory. -/
def EmptySpriteBehindEnd (cpu : Cpu) : Prop :=
  ∃ x y, cpu.peek = .ok (some (.draw x y 0)) ∧ Memory.size < cpu.index.toNat

/-- All other instructions that can meet the end work on some address. -/
theorem span_pos_of_refusal? {address : Nat} (hpeek : cpu.peek = .ok (some instruction))
    (h : cpu.refusal? instruction = some (.memoryOutOfBounds address))
    (hsprite : ¬cpu.EmptySpriteBehindEnd) : 0 < instruction.span := by
  have hread := readFault?_of_refusal? h
  refine Nat.pos_of_ne_zero fun hzero => hsprite ?_
  have hbehind : Memory.size < cpu.index.toNat := by
    simpa only [hzero, Nat.add_zero] using (Memory.readFault?_eq_some_iff.mp hread).1
  cases instruction with
  | draw x y height =>
    obtain rfl : height = 0 := UInt8.toNat_inj.mp hzero
    exact ⟨x, y, hpeek, hbehind⟩
  | storeDecimal | store | load => cases hzero
  | ret | call => simp [refusal?] at h
  | _ => cases h

/-- A refusal that is not for an unknown opcode comes from fetching the opcode, or from the
instruction. -/
theorem fetch_or_refusal?_of_fault? {fault : Fault} (h : cpu.fault? = some fault)
    (hknown : ∀ opcode address, fault ≠ .unknownOpcode opcode address) :
    cpu.fetch = .error fault ∨
      ∃ instruction, cpu.peek = .ok (some instruction) ∧ cpu.refusal? instruction = some fault := by
  unfold fault? at h
  cases hfetch : cpu.fetch with
  | error cause =>
    simp only [hfetch, Option.some.injEq] at h
    exact .inl (h ▸ rfl)
  | ok opcode =>
    cases hdecode : Instruction.decode? opcode with
    | none =>
      simp only [hfetch, hdecode, Option.some.injEq] at h
      exact absurd h.symm (hknown opcode cpu.counter)
    | some instruction =>
      simp only [hfetch, hdecode] at h
      exact .inr ⟨instruction, peek_eq_some_iff.mpr ⟨opcode, hfetch, hdecode⟩, h⟩

/-- What is reported behind the end is the lowest address there that would be accessed. -/
theorem isLeast_of_outOfBounds {address : Nat}
    (h : cpu.fault? = some (.memoryOutOfBounds address)) (hsprite : ¬cpu.EmptySpriteBehindEnd) :
    IsLeast {a | cpu.Touches a ∧ Memory.size ≤ a} address := by
  obtain hfetch | ⟨instruction, hpeek, hrefusal⟩ := fetch_or_refusal?_of_fault? h (by simp)
  · have hpeek : cpu.peek = .error (.memoryOutOfBounds address) := by rw [peek, hfetch]; rfl
    simp only [Touches, hpeek]
    exact Memory.isLeast_of_readFault? (Nat.succ_pos 1) (Memory.word_eq_error_iff.mp hfetch)
  · simp only [touches_iff_of_peek hpeek]
    exact Memory.isLeast_of_readFault? (span_pos_of_refusal? hpeek hrefusal hsprite)
      (readFault?_of_refusal? hrefusal)

/-- What is reported among the glyphs is the lowest address there that would be stored to. -/
theorem isLeast_of_fontOverwrite {address : UInt16}
    (h : cpu.fault? = some (.fontOverwrite address)) :
    (∃ x, cpu.peek = .ok (some (.storeDecimal x)) ∨ cpu.peek = .ok (some (.store x))) ∧
      IsLeast {a | cpu.Touches a ∧ a < Font.stop} address.toNat := by
  obtain hfetch | ⟨instruction, hpeek, hrefusal⟩ := fetch_or_refusal?_of_fault? h (by simp)
  · cases (Memory.readFault?_eq_some_iff.mp (Memory.word_eq_error_iff.mp hfetch)).2
  · obtain ⟨⟨x, rfl | rfl⟩, hwrite⟩ := writeFault?_of_refusal? hrefusal
    · simp only [touches_iff_of_peek hpeek]
      exact ⟨⟨x, .inl hpeek⟩, Memory.isLeast_of_writeFault? (Nat.succ_pos _) hwrite⟩
    · simp only [touches_iff_of_peek hpeek]
      exact ⟨⟨x, .inr hpeek⟩, Memory.isLeast_of_writeFault? (Nat.succ_pos _) hwrite⟩

/-- An empty sprite behind the end would read nothing, and is reported by the index. -/
theorem fault?_of_emptySprite (h : cpu.EmptySpriteBehindEnd) :
    (∀ a, ¬cpu.Touches a) ∧ cpu.fault? = some (.memoryOutOfBounds cpu.index.toNat) := by
  obtain ⟨x, y, hpeek, hbehind⟩ := h
  constructor
  · intro a
    rw [touches_iff_of_peek hpeek]
    exact Memory.not_inRange_zero cpu.index a
  · obtain ⟨opcode, hfetch, hdecode⟩ := peek_eq_some_iff.mp hpeek
    have hfault : Memory.rangeFault cpu.index = .memoryOutOfBounds cpu.index.toNat :=
      congrArg Fault.memoryOutOfBounds (Nat.max_eq_left (Nat.le_of_lt hbehind))
    simp only [fault?, hfetch, hdecode]
    exact Memory.readFault?_eq_some_iff.mpr ⟨hbehind, hfault.symm⟩

/-- In every state, a step that is refused because of the glyphs is to store, and the fault
names the lowest glyph's address that it would store to. Apart from a sprite without rows
that is to be drawn behind the end, a step that is refused because of the end names the
lowest address behind the end that it would access, so that it is not refused if it accesses
none. The exception is always refused, with the index as the address, and accesses none. -/
theorem reported_address_is_lowest_accessed (cpu : Cpu) (screen : Screen) (keypad : Keypad) :
    let result := (cpu.step screen keypad).result
    (∀ address, result = .error (.fontOverwrite address) →
      (∃ x, cpu.peek = .ok (some (.storeDecimal x)) ∨ cpu.peek = .ok (some (.store x))) ∧
      IsLeast {a | cpu.Touches a ∧ a < 0x50} address.toNat) ∧
    (¬cpu.EmptySpriteBehindEnd →
      (∀ address, result = .error (.memoryOutOfBounds address) →
        IsLeast {a | cpu.Touches a ∧ 0x1000 ≤ a} address) ∧
      ((∀ a, ¬cpu.Touches a) → ∀ address, result ≠ .error (.memoryOutOfBounds address))) ∧
    (cpu.EmptySpriteBehindEnd →
      (∀ a, ¬cpu.Touches a) ∧ result = .error (.memoryOutOfBounds cpu.index.toNat)) := by
  intro result
  have hrefused : ∀ fault, result = .error fault ↔ cpu.fault? = some fault := fun _ =>
    step_result_eq_error_iff screen keypad
  simp only [ne_eq, hrefused]
  refine ⟨fun address h => isLeast_of_fontOverwrite h, ?_, fault?_of_emptySprite⟩
  intro hsprite
  have hleast : ∀ address, cpu.fault? = some (.memoryOutOfBounds address) →
      IsLeast {a | cpu.Touches a ∧ Memory.size ≤ a} address :=
    fun address h => isLeast_of_outOfBounds h hsprite
  exact ⟨hleast, fun hnone address h => hnone address (hleast address h).1.1⟩

/-- The index is moved to `0x1001`, and the sprite to be drawn there has no rows. -/
theorem empty_sprite_behind_end_is_refused :
    let loan : Loan := ⟨Screen.blank, Keypad.empty⟩
    let cpu := (ofSource ⟨[0xAF, 0xFF, 0x60, 0x02, 0xF0, 0x1E, 0xD0, 0x10], by decide⟩
      (Random.ofSeed 0)).run [loan, loan, loan]
    (∀ a, ¬cpu.Touches a) ∧
      (cpu.step Screen.blank Keypad.empty).result = .error (.memoryOutOfBounds 0x1001) := by
  intro loan cpu
  obtain ⟨hpeek, hresult⟩ : cpu.peek = .ok (some (.draw 0 1 0)) ∧
      cpu.fault? = some (.memoryOutOfBounds 0x1001) := by decide +kernel
  constructor
  · intro a
    rw [touches_iff_of_peek hpeek]
    exact Memory.not_inRange_zero cpu.index a
  · exact (step_result_eq_error_iff Screen.blank Keypad.empty).mpr hresult

end Cpu

end Chip8
