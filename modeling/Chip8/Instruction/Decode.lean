import Chip8.Instruction.Basic

/-!
# Decoding opcodes

An opcode is two bytes, read as four hexadecimal digits. The first digit selects
a family; within a family the last digit or the last byte may select further, and
the other digits are operands. Digits that select nothing are ignored, so a family
may have several opcodes for one instruction.
-/

namespace Chip8

namespace Opcode

/-- The first digit, which selects the family. -/
def family (opcode : UInt16) : Nat := opcode.toNat / 0x1000

/-- The second digit, the number of the register `x`. -/
def x (opcode : UInt16) : UInt8 := UInt8.ofNat (opcode.toNat / 0x100 % 0x10)

/-- The third digit, the number of the register `y`. -/
def y (opcode : UInt16) : UInt8 := UInt8.ofNat (opcode.toNat / 0x10 % 0x10)

/-- The last digit. -/
def digit (opcode : UInt16) : Nat := opcode.toNat % 0x10

/-- The last two digits. -/
def byte (opcode : UInt16) : Nat := opcode.toNat % 0x100

/-- The last three digits. -/
def address (opcode : UInt16) : UInt16 := UInt16.ofNat (opcode.toNat % 0x1000)

end Opcode

namespace Instruction

/-- The instructions of family 0, which only the last digit tells apart. -/
def ofScreenFamily? : Nat → Option Instruction
  | 0x0 => some .clear
  | 0xE => some .ret
  | _ => none

/-- The one instruction of family 5. -/
def ofCompareFamily? (x y : UInt8) : Nat → Option Instruction
  | 0x0 => some (.skipIfSame x y)
  | _ => none

/-- The instructions of family 8, told apart by the last digit. -/
def ofArithmeticFamily? (x y : UInt8) : Nat → Option Instruction
  | 0x0 => some (.copy x y)
  | 0x1 => some (.or x y)
  | 0x2 => some (.and x y)
  | 0x3 => some (.xor x y)
  | 0x4 => some (.add x y)
  | 0x5 => some (.sub x y)
  | 0x6 => some (.shiftRight x)
  | 0x7 => some (.subFrom x y)
  | 0xE => some (.shiftLeft x)
  | _ => none

/-- The instructions of family E, told apart by the last byte. -/
def ofKeyFamily? (x : UInt8) : Nat → Option Instruction
  | 0x9E => some (.skipIfDown x)
  | 0xA1 => some (.skipUnlessDown x)
  | _ => none

/-- The instructions of family F, told apart by the last byte. -/
def ofDeviceFamily? (x : UInt8) : Nat → Option Instruction
  | 0x07 => some (.readDelay x)
  | 0x0A => some (.waitKey x)
  | 0x15 => some (.setDelay x)
  | 0x18 => some (.setSound x)
  | 0x1E => some (.addIndex x)
  | 0x29 => some (.setGlyph x)
  | 0x33 => some (.storeDecimal x)
  | 0x55 => some (.store x)
  | 0x65 => some (.load x)
  | _ => none

/-- The instruction that an opcode stands for, if it stands for one. -/
def decode? (opcode : UInt16) : Option Instruction :=
  let x := Opcode.x opcode
  let y := Opcode.y opcode
  let byte := UInt8.ofNat (Opcode.byte opcode)
  let address := Opcode.address opcode
  match Opcode.family opcode with
  | 0x0 => ofScreenFamily? (Opcode.digit opcode)
  | 0x1 => some (.jump address)
  | 0x2 => some (.call address)
  | 0x3 => some (.skipIfByte x byte)
  | 0x4 => some (.skipUnlessByte x byte)
  | 0x5 => ofCompareFamily? x y (Opcode.digit opcode)
  | 0x6 => some (.setByte x byte)
  | 0x7 => some (.addByte x byte)
  | 0x8 => ofArithmeticFamily? x y (Opcode.digit opcode)
  | 0x9 => some (.skipUnlessSame x y)
  | 0xA => some (.setIndex address)
  | 0xB => some (.jumpOffset address)
  | 0xC => some (.random x byte)
  | 0xD => some (.draw x y (UInt8.ofNat (Opcode.digit opcode)))
  | 0xE => ofKeyFamily? x (Opcode.byte opcode)
  | 0xF => ofDeviceFamily? x (Opcode.byte opcode)
  | _ => none

end Instruction

end Chip8
