import Chip8.Proofs.Instruction.Operands

/-!
# The table of opcodes

Written as a number, an opcode shows its instruction and the operands by quotients and
remainders alone. Decoding agrees with this table row by row: it gives an instruction
just when the opcode stands for it, and none just when the opcode is in no row.
-/

namespace Chip8

namespace Opcode

/-- The row of the table for an instruction: the opcodes that stand for it. -/
def StandsFor (opcode : Nat) (instruction : Instruction) : Prop :=
  let family := opcode / 0x1000
  let digit := opcode % 0x10
  let byte := opcode % 0x100
  let isX (x : UInt8) := opcode / 0x100 % 0x10 = x.toNat
  let isY (y : UInt8) := opcode / 0x10 % 0x10 = y.toNat
  let isAddress (address : UInt16) := opcode % 0x1000 = address.toNat
  match instruction with
  | .clear => family = 0x0 ∧ digit = 0x0
  | .ret => family = 0x0 ∧ digit = 0xE
  | .jump target => family = 0x1 ∧ isAddress target
  | .call target => family = 0x2 ∧ isAddress target
  | .skipIfByte x value => family = 0x3 ∧ isX x ∧ byte = value.toNat
  | .skipUnlessByte x value => family = 0x4 ∧ isX x ∧ byte = value.toNat
  | .skipIfSame x y => family = 0x5 ∧ digit = 0x0 ∧ isX x ∧ isY y
  | .setByte x value => family = 0x6 ∧ isX x ∧ byte = value.toNat
  | .addByte x value => family = 0x7 ∧ isX x ∧ byte = value.toNat
  | .copy x y => family = 0x8 ∧ digit = 0x0 ∧ isX x ∧ isY y
  | .or x y => family = 0x8 ∧ digit = 0x1 ∧ isX x ∧ isY y
  | .and x y => family = 0x8 ∧ digit = 0x2 ∧ isX x ∧ isY y
  | .xor x y => family = 0x8 ∧ digit = 0x3 ∧ isX x ∧ isY y
  | .add x y => family = 0x8 ∧ digit = 0x4 ∧ isX x ∧ isY y
  | .sub x y => family = 0x8 ∧ digit = 0x5 ∧ isX x ∧ isY y
  | .shiftRight x => family = 0x8 ∧ digit = 0x6 ∧ isX x
  | .subFrom x y => family = 0x8 ∧ digit = 0x7 ∧ isX x ∧ isY y
  | .shiftLeft x => family = 0x8 ∧ digit = 0xE ∧ isX x
  | .skipUnlessSame x y => family = 0x9 ∧ isX x ∧ isY y
  | .setIndex address => family = 0xA ∧ isAddress address
  | .jumpOffset base => family = 0xB ∧ isAddress base
  | .random x mask => family = 0xC ∧ isX x ∧ byte = mask.toNat
  | .draw x y height => family = 0xD ∧ isX x ∧ isY y ∧ digit = height.toNat
  | .skipIfDown x => family = 0xE ∧ byte = 0x9E ∧ isX x
  | .skipUnlessDown x => family = 0xE ∧ byte = 0xA1 ∧ isX x
  | .readDelay x => family = 0xF ∧ byte = 0x07 ∧ isX x
  | .waitKey x => family = 0xF ∧ byte = 0x0A ∧ isX x
  | .setDelay x => family = 0xF ∧ byte = 0x15 ∧ isX x
  | .setSound x => family = 0xF ∧ byte = 0x18 ∧ isX x
  | .addIndex x => family = 0xF ∧ byte = 0x1E ∧ isX x
  | .setGlyph x => family = 0xF ∧ byte = 0x29 ∧ isX x
  | .storeDecimal x => family = 0xF ∧ byte = 0x33 ∧ isX x
  | .store x => family = 0xF ∧ byte = 0x55 ∧ isX x
  | .load x => family = 0xF ∧ byte = 0x65 ∧ isX x

/-- The opcodes that are in no row of the table. -/
def Unlisted (opcode : Nat) : Prop :=
  let family := opcode / 0x1000
  let digit := opcode % 0x10
  let byte := opcode % 0x100
  family = 0x0 ∧ digit ≠ 0x0 ∧ digit ≠ 0xE ∨
  family = 0x5 ∧ digit ≠ 0x0 ∨
  family = 0x8 ∧ (0x8 ≤ digit ∧ digit ≤ 0xD ∨ digit = 0xF) ∨
  family = 0xE ∧ byte ≠ 0x9E ∧ byte ≠ 0xA1 ∨
  family = 0xF ∧ byte ∉ [0x07, 0x0A, 0x15, 0x18, 0x1E, 0x29, 0x33, 0x55, 0x65]

variable {opcode : UInt16}

theorem x_eq_iff {r : UInt8} : x opcode = r ↔ opcode.toNat / 0x100 % 0x10 = r.toNat := by
  rw [← UInt8.toNat_inj, x, UInt8.toNat_ofNat', Nat.mod_eq_of_lt (by omega)]

theorem y_eq_iff {r : UInt8} : y opcode = r ↔ opcode.toNat / 0x10 % 0x10 = r.toNat := by
  rw [← UInt8.toNat_inj, y, UInt8.toNat_ofNat', Nat.mod_eq_of_lt (by omega)]

theorem address_eq_iff {a : UInt16} : address opcode = a ↔ opcode.toNat % 0x1000 = a.toNat := by
  rw [← UInt16.toNat_inj, address, UInt16.toNat_ofNat', Nat.mod_eq_of_lt (by omega)]

theorem byte_eq_iff {value : UInt8} :
    UInt8.ofNat (byte opcode) = value ↔ opcode.toNat % 0x100 = value.toNat := by
  rw [← UInt8.toNat_inj, byte, UInt8.toNat_ofNat', Nat.mod_eq_of_lt (by omega)]

theorem digit_eq_iff {value : UInt8} :
    UInt8.ofNat (digit opcode) = value ↔ opcode.toNat % 0x10 = value.toNat := by
  rw [← UInt8.toNat_inj, digit, UInt8.toNat_ofNat', Nat.mod_eq_of_lt (by omega)]

end Opcode

namespace Instruction

open Opcode

variable {opcode : UInt16} {instruction : Instruction}

/-- An opcode stands for the instruction that decoding gives. -/
theorem standsFor_of_decode? (h : decode? opcode = some instruction) :
    StandsFor opcode.toNat instruction := by
  unfold decode? at h
  dsimp only at h
  split at h
  case h_1 hfamily =>
    unfold ofScreenFamily? at h
    split at h <;> cases h
    all_goals exact ⟨hfamily, ‹_›⟩
  case h_6 hfamily =>
    unfold ofCompareFamily? at h
    split at h <;> cases h
    exact ⟨hfamily, ‹_›, x_eq_iff.mp rfl, y_eq_iff.mp rfl⟩
  case h_9 hfamily =>
    unfold ofArithmeticFamily? at h
    split at h <;> cases h
    all_goals simp only [StandsFor, ← x_eq_iff, ← y_eq_iff, and_true]
    all_goals exact ⟨hfamily, ‹_›⟩
  case h_15 hfamily =>
    unfold ofKeyFamily? at h
    split at h <;> cases h
    all_goals exact ⟨hfamily, ‹_›, x_eq_iff.mp rfl⟩
  case h_16 hfamily =>
    unfold ofDeviceFamily? at h
    split at h <;> cases h
    all_goals exact ⟨hfamily, ‹_›, x_eq_iff.mp rfl⟩
  case h_17 => cases h
  -- The other families have one row each.
  all_goals
    cases h
    simp only [StandsFor, ← x_eq_iff, ← y_eq_iff, ← address_eq_iff, ← byte_eq_iff,
      ← digit_eq_iff, and_true]
    assumption

/-- Decoding gives the instruction that an opcode stands for. -/
theorem decode?_of_standsFor (h : StandsFor opcode.toNat instruction) :
    decode? opcode = some instruction := by
  cases instruction
  all_goals
    simp only [StandsFor, ← x_eq_iff, ← y_eq_iff, ← address_eq_iff, ← byte_eq_iff,
      ← digit_eq_iff] at h
  case clear | ret =>
    obtain ⟨hfamily, hdigit⟩ := h
    simp only [decode?, family, hfamily, digit, hdigit, ofScreenFamily?]
  case skipIfSame =>
    obtain ⟨hfamily, hdigit, rfl, rfl⟩ := h
    simp only [decode?, family, hfamily, digit, hdigit, ofCompareFamily?]
  case copy | or | and | xor | add | sub | subFrom =>
    obtain ⟨hfamily, hdigit, rfl, rfl⟩ := h
    simp only [decode?, family, hfamily, digit, hdigit, ofArithmeticFamily?]
  case shiftRight | shiftLeft =>
    obtain ⟨hfamily, hdigit, rfl⟩ := h
    simp only [decode?, family, hfamily, digit, hdigit, ofArithmeticFamily?]
  case skipIfDown | skipUnlessDown =>
    obtain ⟨hfamily, hbyte, rfl⟩ := h
    simp only [decode?, family, hfamily, byte, hbyte, ofKeyFamily?]
  case readDelay | waitKey | setDelay | setSound | addIndex | setGlyph | storeDecimal | store
      | load =>
    obtain ⟨hfamily, hbyte, rfl⟩ := h
    simp only [decode?, family, hfamily, byte, hbyte, ofDeviceFamily?]
  case draw =>
    obtain ⟨hfamily, rfl, rfl, rfl⟩ := h
    simp only [decode?, family, hfamily]
  case jump | call | setIndex | jumpOffset =>
    obtain ⟨hfamily, rfl⟩ := h
    simp only [decode?, family, hfamily]
  all_goals
    obtain ⟨hfamily, rfl, rfl⟩ := h
    simp only [decode?, family, hfamily]

/-- Decoding reads the table. -/
theorem decode?_eq_some_iff :
    decode? opcode = some instruction ↔ StandsFor opcode.toNat instruction :=
  ⟨standsFor_of_decode?, decode?_of_standsFor⟩

section Unlisted

variable {x y : UInt8} {selector : Nat}

private theorem ofScreenFamily?_eq_none_iff :
    ofScreenFamily? selector = none ↔ selector ≠ 0x0 ∧ selector ≠ 0xE := by
  unfold ofScreenFamily?
  split <;> simp_all

private theorem ofCompareFamily?_eq_none_iff :
    ofCompareFamily? x y selector = none ↔ selector ≠ 0x0 := by
  unfold ofCompareFamily?
  split <;> simp_all

private theorem ofArithmeticFamily?_eq_none_iff :
    ofArithmeticFamily? x y selector = none ↔ 0x8 ≤ selector ∧ selector ≠ 0xE := by
  unfold ofArithmeticFamily?
  split <;> simp_all
  omega

private theorem ofKeyFamily?_eq_none_iff :
    ofKeyFamily? x selector = none ↔ selector ≠ 0x9E ∧ selector ≠ 0xA1 := by
  unfold ofKeyFamily?
  split <;> simp_all

private theorem ofDeviceFamily?_eq_none_iff :
    ofDeviceFamily? x selector = none ↔
      selector ∉ [0x07, 0x0A, 0x15, 0x18, 0x1E, 0x29, 0x33, 0x55, 0x65] := by
  unfold ofDeviceFamily?
  split <;> simp_all

end Unlisted

/-- Decoding gives nothing just for the opcodes that are not listed. -/
theorem decode?_eq_none_iff : decode? opcode = none ↔ Unlisted opcode.toNat := by
  have hlt := opcode.toNat_lt
  unfold decode? Unlisted
  dsimp only
  split
  case h_1 hfamily =>
    rw [ofScreenFamily?_eq_none_iff]
    simp only [family, digit] at hfamily ⊢
    omega
  case h_6 hfamily =>
    rw [ofCompareFamily?_eq_none_iff]
    simp only [family, digit] at hfamily ⊢
    omega
  case h_9 hfamily =>
    rw [ofArithmeticFamily?_eq_none_iff]
    simp only [family, digit] at hfamily ⊢
    omega
  case h_15 hfamily =>
    rw [ofKeyFamily?_eq_none_iff]
    simp only [family, byte] at hfamily ⊢
    omega
  case h_16 hfamily =>
    rw [ofDeviceFamily?_eq_none_iff]
    simp only [family, byte] at hfamily ⊢
    simp [hfamily]
  case h_17 =>
    have hfamily : family opcode < 0x10 := by
      simp only [family]
      omega
    exfalso
    simp only [imp_false] at *
    omega
  all_goals
    next hfamily =>
      simp only [family] at hfamily
      simp only [reduceCtorEq, false_iff]
      omega

end Instruction

end Chip8
