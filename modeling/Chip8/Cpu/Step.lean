import Chip8.Cpu.Execute

/-!
# Steps of the processor

A step fetches an opcode, decodes it, executes the instruction, moves the program
counter and ticks the timers. An instruction that waits for a key blocks: nothing
moves and no timer ticks.
-/

namespace Chip8

/-- What a step did. -/
inductive Cycle where
  /-- The program counter moved on and the timers ticked; `tone` tells whether the
  sound timer ran out. -/
  | progressed (tone : Bool)
  /-- The step waits for a key. -/
  | blocked
  deriving DecidableEq, Repr

namespace Cpu

/-- Complete an executed instruction: move the program counter and tick the timers,
or stay. -/
def complete (cpu : Cpu) (flow : Flow) : Cycle × Cpu :=
  match flow.target? cpu.counter with
  | some counter =>
    (.progressed cpu.timers.expiring, { cpu with counter, timers := cpu.timers.tick })
  | none => (.blocked, cpu)

/-- One step with a given screen and keypad. -/
def step (cpu : Cpu) (screen : Screen) (keypad : Keypad) : Outcome Cycle :=
  match cpu.fetch with
  | .error fault => ⟨.error fault, cpu, screen⟩
  | .ok opcode =>
    match Instruction.decode? opcode with
    | none => ⟨.error (.unknownOpcode opcode cpu.counter), cpu, screen⟩
    | some instruction =>
      match cpu.execute screen keypad instruction with
      | ⟨.error fault, cpu, screen⟩ => ⟨.error fault, cpu, screen⟩
      | ⟨.ok flow, cpu, screen⟩ =>
        let (cycle, cpu) := cpu.complete flow
        ⟨.ok cycle, cpu, screen⟩

end Cpu

end Chip8
