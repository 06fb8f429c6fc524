import Chip8.Cpu.Step
import Chip8.Machine.Shell

/-!
# The machine

A machine is a processor with its keypad, driven by a shell. In a cycle the shell
is asked first, and its key events count even if it turns out to be gone. While it
is there the processor makes a step; then the shell beeps if the sound timer ran
out, and shows the screen if something was written to it since it was last shown. A
step that is refused is followed by neither.
-/

namespace Chip8

/-- A processor and the keys that it reads. -/
structure Machine where
  /-- The processor. -/
  cpu : Cpu
  /-- The keys. -/
  keypad : Keypad

/-- What became of running a machine with a shell, and both afterwards. -/
structure Turn (σ α : Type) where
  /-- The result, or why there is none. -/
  result : Except Fault α
  /-- The machine afterwards. -/
  machine : Machine
  /-- The shell afterwards. -/
  shell : σ

namespace Machine

/-- A machine with no key down. -/
def ofCpu (cpu : Cpu) : Machine := ⟨cpu, Keypad.empty⟩

variable {σ : Type} [Shell σ]

/-- Beep if a step ran the sound timer out. -/
def sound (cycle : Cycle) (shell : σ) : σ :=
  if cycle = .progressed true then Shell.beep shell else shell

/-- Show the screen if something was written to it, and note that it was shown. -/
def present (shell : σ) : σ :=
  if (Shell.screen shell).dirty then
    Shell.draw (Shell.withScreen shell (Shell.screen shell).markShown)
  else shell

/-- One cycle. The result is `none` if the shell is gone. -/
def cycle (machine : Machine) (shell : σ) : Turn σ (Option Cycle) :=
  let (poll, shell) := Shell.poll shell
  let keypad := machine.keypad.applyAll poll.events
  if poll.alive then
    match machine.cpu.step (Shell.screen shell) keypad with
    | ⟨.error fault, cpu, screen⟩ =>
      ⟨.error fault, ⟨cpu, keypad⟩, Shell.withScreen shell screen⟩
    | ⟨.ok cycle, cpu, screen⟩ =>
      ⟨.ok (some cycle), ⟨cpu, keypad⟩, present (sound cycle (Shell.withScreen shell screen))⟩
  else ⟨.ok none, ⟨machine.cpu, keypad⟩, shell⟩

end Machine

end Chip8
