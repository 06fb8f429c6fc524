import Chip8.CallStack
import Chip8.Text.Hex

/-!
# Faults

The ways in which a step of the interpreter can fail. A fault says what was
refused and where; none of them can be recovered from, so a machine in front of
one meets the same fault again at every later step.
-/

namespace Chip8

/-- Why a step was refused. -/
inductive Fault where
  /-- The two bytes at `address` are no instruction. -/
  | unknownOpcode (opcode address : UInt16)
  /-- The call at `address` found the call stack full. -/
  | stackOverflow (address : UInt16)
  /-- The return at `address` found no pending call. -/
  | stackUnderflow (address : UInt16)
  /-- An access reached `address`, which lies behind the end of memory. -/
  | memoryOutOfBounds (address : Nat)
  /-- A store reached `address`, which belongs to the glyphs. -/
  | fontOverwrite (address : UInt16)
  deriving DecidableEq, Repr

/-- The text that reports a fault: opcodes and possibly wide addresses have at
least four digits, addresses inside memory at least three. -/
def Fault.message : Fault → String
  | .unknownOpcode opcode address =>
    "unknown opcode " ++ Hex.upper 4 opcode.toNat ++ " at address " ++ Hex.upper 3 address.toNat
  | .stackOverflow address =>
    "stack overflow: call at " ++ Hex.upper 3 address.toNat ++ " exceeds "
      ++ Nat.repr CallStack.capacity ++ " nested subroutines"
  | .stackUnderflow address =>
    "stack underflow: return at " ++ Hex.upper 3 address.toNat ++ " with an empty call stack"
  | .memoryOutOfBounds address =>
    "memory access out of bounds at address " ++ Hex.upper 4 address
  | .fontOverwrite address =>
    "write to the font region at address " ++ Hex.upper 3 address.toNat

end Chip8
