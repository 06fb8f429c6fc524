import Chip8.Instruction.Decode
import Chip8.Memory
import Chip8.Random.Source
import Chip8.Registers
import Chip8.Timers

/-!
# The state of the processor

The processor owns the memory, the registers, the timers, the call stack and its
source of random numbers. Screen and keypad are lent to it for each step.
-/

namespace Chip8

/-- The state of the processor. -/
structure Cpu where
  /-- The address of the next instruction. -/
  counter : UInt16
  /-- The index, which names the memory that instructions work on. -/
  index : UInt16
  /-- The data registers. -/
  registers : Registers
  /-- The timers. -/
  timers : Timers
  /-- The pending calls. -/
  stack : CallStack
  /-- The memory. -/
  memory : Memory
  /-- Where random bytes come from. -/
  random : Random

namespace Cpu

/-- The state in which the program in a memory starts. -/
def ofMemory (memory : Memory) (random : Random) : Cpu where
  counter := UInt16.ofNat Memory.programStart
  index := 0
  registers := Registers.zero
  timers := Timers.zero
  stack := CallStack.empty
  memory := memory
  random := random

/-- The state in which a program starts with a given source of random numbers. -/
def ofSource (rom : Rom) (random : Random) : Cpu := ofMemory (Memory.ofRom rom) random

/-- The state in which a program starts with the random numbers of a seed. -/
def ofSeed (rom : Rom) (seed : UInt64) : Cpu := ofSource rom (Random.ofSeed seed)

/-- Prepare a processor for a program. The program is loaded by a store like any other,
so it depends on the bounds of this store whether there is a processor. -/
def create (rom : Rom) (random : Random) : Except Fault Cpu :=
  (Memory.withGlyphs.load rom).map fun memory => ofMemory memory random

/-- The opcode at the program counter. -/
def fetch (cpu : Cpu) : Except Fault UInt16 := cpu.memory.word cpu.counter

/-- The instruction at the program counter, which may be none. -/
def peek (cpu : Cpu) : Except Fault (Option Instruction) := cpu.fetch.map Instruction.decode?

end Cpu

end Chip8
