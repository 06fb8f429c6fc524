/-!
# Instructions

The thirty-four instructions, each with its operands. Register operands are bytes
of which an opcode fills only the low half; addresses are words of which it fills
the low twelve bits.
-/

namespace Chip8

/-- One instruction. `x` and `y` number registers throughout. -/
inductive Instruction where
  /-- Make the screen dark. -/
  | clear
  /-- Go on behind the innermost pending call. -/
  | ret
  /-- Go on at `target`. -/
  | jump (target : UInt16)
  /-- Note this place as a pending call and go on at `target`. -/
  | call (target : UInt16)
  /-- Skip the next instruction if `x` holds `byte`. -/
  | skipIfByte (x byte : UInt8)
  /-- Skip the next instruction unless `x` holds `byte`. -/
  | skipUnlessByte (x byte : UInt8)
  /-- Skip the next instruction if `x` and `y` hold the same. -/
  | skipIfSame (x y : UInt8)
  /-- Put `byte` into `x`. -/
  | setByte (x byte : UInt8)
  /-- Add `byte` to `x`, without a flag. -/
  | addByte (x byte : UInt8)
  /-- Put what `y` holds into `x`. -/
  | copy (x y : UInt8)
  /-- Bitwise disjunction of `x` and `y` in `x`. -/
  | or (x y : UInt8)
  /-- Bitwise conjunction of `x` and `y` in `x`. -/
  | and (x y : UInt8)
  /-- Bitwise difference of `x` and `y` in `x`. -/
  | xor (x y : UInt8)
  /-- Add `y` to `x`; the flag is the carry. -/
  | add (x y : UInt8)
  /-- Take `y` from `x`; the flag tells that nothing was borrowed. -/
  | sub (x y : UInt8)
  /-- Halve `x`; the flag is the bit that falls off. -/
  | shiftRight (x : UInt8)
  /-- Put `y` less `x` into `x`; the flag tells that nothing was borrowed. -/
  | subFrom (x y : UInt8)
  /-- Double `x`; the flag is the bit that falls off. -/
  | shiftLeft (x : UInt8)
  /-- Skip the next instruction unless `x` and `y` hold the same. -/
  | skipUnlessSame (x y : UInt8)
  /-- Put `address` into the index. -/
  | setIndex (address : UInt16)
  /-- Go on at `base` plus what `V0` holds. -/
  | jumpOffset (base : UInt16)
  /-- Put a random byte, cut down to the bits of `mask`, into `x`. -/
  | random (x mask : UInt8)
  /-- Draw the `height` bytes at the index as a sprite in column `x` and row `y`;
  the flag is the collision. -/
  | draw (x y height : UInt8)
  /-- Skip the next instruction if the key numbered by `x` is down. -/
  | skipIfDown (x : UInt8)
  /-- Skip the next instruction unless the key numbered by `x` is down. -/
  | skipUnlessDown (x : UInt8)
  /-- Put the delay timer into `x`. -/
  | readDelay (x : UInt8)
  /-- Wait until a key is down and put its number into `x`. -/
  | waitKey (x : UInt8)
  /-- Put `x` into the delay timer. -/
  | setDelay (x : UInt8)
  /-- Put `x` into the sound timer. -/
  | setSound (x : UInt8)
  /-- Add `x` to the index; the flag tells that it left the memory. -/
  | addIndex (x : UInt8)
  /-- Put the address of the glyph numbered by `x` into the index. -/
  | setGlyph (x : UInt8)
  /-- Store the three decimal digits of `x` at the index. -/
  | storeDecimal (x : UInt8)
  /-- Store `V0` to `x` at the index and move the index behind them. -/
  | store (x : UInt8)
  /-- Load `V0` to `x` from the index and move the index behind them. -/
  | load (x : UInt8)
  deriving DecidableEq, Repr

/-- How many bytes an instruction takes. -/
def Instruction.size : Nat := 2

end Chip8
