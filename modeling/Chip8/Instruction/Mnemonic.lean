import Chip8.Instruction.Basic
import Chip8.Text.Hex

/-!
# Mnemonics

The assembler form of an instruction is a name and a list of operands. Its text
has one blank behind the name and a comma with a blank between two operands.
Several instructions share a name; their operands tell them apart.
-/

namespace Chip8

/-- One operand of a mnemonic. -/
inductive Operand where
  /-- A data register. -/
  | register (number : UInt8)
  /-- A byte. -/
  | byte (value : UInt8)
  /-- An address. -/
  | address (value : UInt16)
  /-- A count of rows. -/
  | rows (count : UInt8)
  /-- The index. -/
  | index
  /-- The memory at the index. -/
  | memory
  /-- The delay timer. -/
  | delay
  /-- The sound timer. -/
  | sound
  /-- A key. -/
  | key
  /-- The address of a glyph. -/
  | glyph
  /-- Decimal digits in memory. -/
  | decimal
  deriving DecidableEq, Repr

/-- The text of an operand: registers in upper case digits, bytes and addresses as
marked lower case numerals of at least two and three digits, rows in decimal. -/
def Operand.text : Operand → String
  | .register number => "V" ++ Hex.bare number.toNat
  | .byte value => Hex.lower 2 value.toNat
  | .address value => Hex.lower 3 value.toNat
  | .rows count => Nat.repr count.toNat
  | .index => "I"
  | .memory => "[I]"
  | .delay => "DT"
  | .sound => "ST"
  | .key => "K"
  | .glyph => "F"
  | .decimal => "B"

/-- The assembler form of an instruction. -/
structure Mnemonic where
  /-- The name of the operation. -/
  name : String
  /-- The operands, in the order in which they are written. -/
  operands : List Operand
  deriving DecidableEq, Repr

namespace Mnemonic

/-- The operands with a comma and a blank between each two. -/
def joined : List Operand → String
  | [] => ""
  | [operand] => operand.text
  | operand :: next :: rest => operand.text ++ ", " ++ joined (next :: rest)

/-- The text of a mnemonic. -/
def text (mnemonic : Mnemonic) : String :=
  if mnemonic.operands.isEmpty then mnemonic.name
  else mnemonic.name ++ " " ++ joined mnemonic.operands

end Mnemonic

/-- The assembler form of each instruction. -/
def Instruction.mnemonic : Instruction → Mnemonic
  | .clear => ⟨"CLS", []⟩
  | .ret => ⟨"RET", []⟩
  | .jump target => ⟨"JP", [.address target]⟩
  | .call target => ⟨"CALL", [.address target]⟩
  | .skipIfByte x byte => ⟨"SE", [.register x, .byte byte]⟩
  | .skipUnlessByte x byte => ⟨"SNE", [.register x, .byte byte]⟩
  | .skipIfSame x y => ⟨"SE", [.register x, .register y]⟩
  | .setByte x byte => ⟨"LD", [.register x, .byte byte]⟩
  | .addByte x byte => ⟨"ADD", [.register x, .byte byte]⟩
  | .copy x y => ⟨"LD", [.register x, .register y]⟩
  | .or x y => ⟨"OR", [.register x, .register y]⟩
  | .and x y => ⟨"AND", [.register x, .register y]⟩
  | .xor x y => ⟨"XOR", [.register x, .register y]⟩
  | .add x y => ⟨"ADD", [.register x, .register y]⟩
  | .sub x y => ⟨"SUB", [.register x, .register y]⟩
  | .shiftRight x => ⟨"SHR", [.register x]⟩
  | .subFrom x y => ⟨"SUBN", [.register x, .register y]⟩
  | .shiftLeft x => ⟨"SHL", [.register x]⟩
  | .skipUnlessSame x y => ⟨"SNE", [.register x, .register y]⟩
  | .setIndex address => ⟨"LD", [.index, .address address]⟩
  | .jumpOffset base => ⟨"JP", [.register 0, .address base]⟩
  | .random x mask => ⟨"RND", [.register x, .byte mask]⟩
  | .draw x y height => ⟨"DRW", [.register x, .register y, .rows height]⟩
  | .skipIfDown x => ⟨"SKP", [.register x]⟩
  | .skipUnlessDown x => ⟨"SKNP", [.register x]⟩
  | .readDelay x => ⟨"LD", [.register x, .delay]⟩
  | .waitKey x => ⟨"LD", [.register x, .key]⟩
  | .setDelay x => ⟨"LD", [.delay, .register x]⟩
  | .setSound x => ⟨"LD", [.sound, .register x]⟩
  | .addIndex x => ⟨"ADD", [.index, .register x]⟩
  | .setGlyph x => ⟨"LD", [.glyph, .register x]⟩
  | .storeDecimal x => ⟨"LD", [.decimal, .register x]⟩
  | .store x => ⟨"LD", [.memory, .register x]⟩
  | .load x => ⟨"LD", [.register x, .memory]⟩

/-- The text by which messages name an instruction. -/
def Instruction.text (instruction : Instruction) : String := instruction.mnemonic.text

end Chip8
