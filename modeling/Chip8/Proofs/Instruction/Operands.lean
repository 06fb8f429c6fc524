import Chip8.Instruction.Decode

/-!
# The operands of decoded instructions

Operands are bytes and words, but an opcode has room for a digit per register and for
three digits of an address. Decoding gives no instruction whose operands are larger.
-/

namespace Chip8

namespace Opcode

theorem x_lt (opcode : UInt16) : (x opcode).toNat < 0x10 := by
  simp only [x, UInt8.toNat_ofNat']
  omega

theorem y_lt (opcode : UInt16) : (y opcode).toNat < 0x10 := by
  simp only [y, UInt8.toNat_ofNat']
  omega

theorem digit_lt (opcode : UInt16) : (UInt8.ofNat (digit opcode)).toNat < 0x10 := by
  simp only [digit, UInt8.toNat_ofNat']
  omega

theorem address_lt (opcode : UInt16) : (address opcode).toNat < 0x1000 := by
  simp only [address, UInt16.toNat_ofNat']
  omega

end Opcode

namespace Instruction

/-- The operands are registers that there are, addresses of twelve bits, and a height of
one digit. -/
def Fits : Instruction → Prop
  | .clear | .ret => True
  | .jump address | .call address | .setIndex address | .jumpOffset address =>
    address.toNat < 0x1000
  | .draw x y height => x.toNat < 0x10 ∧ y.toNat < 0x10 ∧ height.toNat < 0x10
  | .skipIfSame x y | .skipUnlessSame x y | .copy x y | .or x y | .and x y | .xor x y
  | .add x y | .sub x y | .subFrom x y => x.toNat < 0x10 ∧ y.toNat < 0x10
  | .skipIfByte x _ | .skipUnlessByte x _ | .setByte x _ | .addByte x _ | .random x _
  | .shiftRight x | .shiftLeft x | .skipIfDown x | .skipUnlessDown x | .readDelay x
  | .waitKey x | .setDelay x | .setSound x | .addIndex x | .setGlyph x | .storeDecimal x
  | .store x | .load x => x.toNat < 0x10

variable {x y : UInt8} {selector : Nat} {instruction : Instruction}

private theorem fits_of_ofScreenFamily? (h : ofScreenFamily? selector = some instruction) :
    instruction.Fits := by
  unfold ofScreenFamily? at h
  split at h <;> cases h <;> trivial

private theorem fits_of_ofCompareFamily? (hx : x.toNat < 0x10) (hy : y.toNat < 0x10)
    (h : ofCompareFamily? x y selector = some instruction) : instruction.Fits := by
  unfold ofCompareFamily? at h
  split at h <;> cases h
  exact ⟨hx, hy⟩

private theorem fits_of_ofArithmeticFamily? (hx : x.toNat < 0x10) (hy : y.toNat < 0x10)
    (h : ofArithmeticFamily? x y selector = some instruction) : instruction.Fits := by
  unfold ofArithmeticFamily? at h
  split at h <;> cases h
  all_goals first
    | exact ⟨hx, hy⟩
    | exact hx

private theorem fits_of_ofKeyFamily? (hx : x.toNat < 0x10)
    (h : ofKeyFamily? x selector = some instruction) : instruction.Fits := by
  unfold ofKeyFamily? at h
  split at h <;> cases h <;> exact hx

private theorem fits_of_ofDeviceFamily? (hx : x.toNat < 0x10)
    (h : ofDeviceFamily? x selector = some instruction) : instruction.Fits := by
  unfold ofDeviceFamily? at h
  split at h <;> cases h <;> exact hx

/-- Decoding gives operands that an opcode has room for. -/
theorem fits_of_decode? {opcode : UInt16} (h : decode? opcode = some instruction) :
    instruction.Fits := by
  have hx := Opcode.x_lt opcode
  have hy := Opcode.y_lt opcode
  have haddress := Opcode.address_lt opcode
  unfold decode? at h
  dsimp only at h
  split at h
  · exact fits_of_ofScreenFamily? h
  · cases h; exact haddress
  · cases h; exact haddress
  · cases h; exact hx
  · cases h; exact hx
  · exact fits_of_ofCompareFamily? hx hy h
  · cases h; exact hx
  · cases h; exact hx
  · exact fits_of_ofArithmeticFamily? hx hy h
  · cases h; exact ⟨hx, hy⟩
  · cases h; exact haddress
  · cases h; exact haddress
  · cases h; exact hx
  · cases h; exact ⟨hx, hy, Opcode.digit_lt opcode⟩
  · exact fits_of_ofKeyFamily? hx h
  · exact fits_of_ofDeviceFamily? hx h
  · cases h

end Instruction

end Chip8
