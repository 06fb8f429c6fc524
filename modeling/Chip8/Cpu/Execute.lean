import Chip8.Cpu.State
import Chip8.Keypad
import Chip8.Screen

/-!
# Executing an instruction

Executing an instruction changes the processor and the screen and tells how the
program counter moves on. It may also be refused. Either way the answer holds the
processor and the screen as they are afterwards, so that a refusal shows what it
left behind. Flags are written after results: where both go to the last register,
the flag stays.
-/

namespace Chip8

/-- How the program counter moves on. -/
inductive Flow where
  /-- To the next instruction. -/
  | next
  /-- Past the next instruction. -/
  | skip
  /-- To an address. -/
  | jump (target : UInt16)
  /-- Not at all: the instruction is to be tried again. -/
  | wait
  deriving DecidableEq, Repr

namespace Flow

/-- Past the next instruction on a condition. -/
def skipIf (condition : Bool) : Flow := if condition then .skip else .next

/-- Where the program counter goes from a given place; `none` if it stays. -/
def target? (counter : UInt16) : Flow → Option UInt16
  | .next => some (counter + UInt16.ofNat Instruction.size)
  | .skip => some (counter + UInt16.ofNat (2 * Instruction.size))
  | .jump target => some target
  | .wait => none

/-- Only a waiting instruction stays. -/
theorem target?_eq_none_iff {counter : UInt16} {flow : Flow} :
    flow.target? counter = none ↔ flow = .wait := by
  cases flow <;> simp [target?]

@[simp] theorem skipIf_ne_wait (condition : Bool) : skipIf condition ≠ .wait := by
  cases condition <;> simp [skipIf]

@[simp] theorem skipIf_ne_jump (condition : Bool) (target : UInt16) :
    skipIf condition ≠ .jump target := by
  cases condition <;> simp [skipIf]

end Flow

/-- What became of an attempt, and the processor and the screen after it. -/
structure Outcome (α : Type) where
  /-- The result, or why there is none. -/
  result : Except Fault α
  /-- The processor after the attempt. -/
  cpu : Cpu
  /-- The screen after the attempt. -/
  screen : Screen

namespace Cpu

/-- Put a byte into a register. -/
def setRegister (cpu : Cpu) (x value : UInt8) : Cpu :=
  { cpu with registers := cpu.registers.set x value }

/-- Put a byte into a register, and then a flag into the flag register. -/
def setResult (cpu : Cpu) (x value : UInt8) (on : Bool) : Cpu :=
  { cpu with registers := (cpu.registers.set x value).setFlag on }

/-- The index behind the registers from `V0` to `x` in memory. -/
def indexBehind (cpu : Cpu) (x : UInt8) : UInt16 := cpu.index + x.toUInt16 + 1

/-- The hundreds, tens and ones of a byte. -/
def decimalDigits (value : UInt8) : List UInt8 := [value / 100, value / 10 % 10, value % 10]

@[simp] theorem length_decimalDigits (value : UInt8) : (decimalDigits value).length = 3 := rfl

/-- Execute one instruction. -/
def execute (cpu : Cpu) (screen : Screen) (keypad : Keypad) (instruction : Instruction) :
    Outcome Flow :=
  let v := cpu.registers.get
  match instruction with
  | .clear => ⟨.ok .next, cpu, screen.clear⟩
  | .ret =>
    match cpu.stack.pop? with
    | some (caller, stack) =>
      ⟨.ok (.jump (caller + UInt16.ofNat Instruction.size)), { cpu with stack }, screen⟩
    | none => ⟨.error (.stackUnderflow cpu.counter), cpu, screen⟩
  | .jump target => ⟨.ok (.jump target), cpu, screen⟩
  | .call target =>
    match cpu.stack.push? cpu.counter with
    | some stack => ⟨.ok (.jump target), { cpu with stack }, screen⟩
    | none => ⟨.error (.stackOverflow cpu.counter), cpu, screen⟩
  | .skipIfByte x byte => ⟨.ok (.skipIf (v x == byte)), cpu, screen⟩
  | .skipUnlessByte x byte => ⟨.ok (.skipIf (v x != byte)), cpu, screen⟩
  | .skipIfSame x y => ⟨.ok (.skipIf (v x == v y)), cpu, screen⟩
  | .setByte x byte => ⟨.ok .next, cpu.setRegister x byte, screen⟩
  | .addByte x byte => ⟨.ok .next, cpu.setRegister x (v x + byte), screen⟩
  | .copy x y => ⟨.ok .next, cpu.setRegister x (v y), screen⟩
  | .or x y => ⟨.ok .next, cpu.setRegister x (v x ||| v y), screen⟩
  | .and x y => ⟨.ok .next, cpu.setRegister x (v x &&& v y), screen⟩
  | .xor x y => ⟨.ok .next, cpu.setRegister x (v x ^^^ v y), screen⟩
  | .add x y =>
    ⟨.ok .next, cpu.setResult x (v x + v y) (255 < (v x).toNat + (v y).toNat), screen⟩
  | .sub x y => ⟨.ok .next, cpu.setResult x (v x - v y) (v y ≤ v x), screen⟩
  | .shiftRight x => ⟨.ok .next, cpu.setResult x (v x >>> 1) (v x &&& 0x01 != 0), screen⟩
  | .subFrom x y => ⟨.ok .next, cpu.setResult x (v y - v x) (v x ≤ v y), screen⟩
  | .shiftLeft x => ⟨.ok .next, cpu.setResult x (v x <<< 1) (v x &&& 0x80 != 0), screen⟩
  | .skipUnlessSame x y => ⟨.ok (.skipIf (v x != v y)), cpu, screen⟩
  | .setIndex address => ⟨.ok .next, { cpu with index := address }, screen⟩
  | .jumpOffset base => ⟨.ok (.jump (base + (v 0).toUInt16)), cpu, screen⟩
  | .random x mask =>
    let drawn := { cpu with random := cpu.random.advance }
    ⟨.ok .next, drawn.setRegister x (cpu.random.byte &&& mask), screen⟩
  | .draw x y height =>
    match cpu.memory.read cpu.index height.toNat with
    | .ok rows =>
      let (collision, screen) := screen.drawSprite (v x).toNat (v y).toNat rows
      ⟨.ok .next, { cpu with registers := cpu.registers.setFlag collision }, screen⟩
    | .error fault => ⟨.error fault, cpu, screen⟩
  | .skipIfDown x => ⟨.ok (.skipIf (keypad.isDown (v x))), cpu, screen⟩
  | .skipUnlessDown x => ⟨.ok (.skipIf (!keypad.isDown (v x))), cpu, screen⟩
  | .readDelay x => ⟨.ok .next, cpu.setRegister x cpu.timers.delay, screen⟩
  | .waitKey x =>
    match keypad.firstDown? with
    | some key => ⟨.ok .next, cpu.setRegister x key, screen⟩
    | none => ⟨.ok .wait, cpu, screen⟩
  | .setDelay x => ⟨.ok .next, { cpu with timers.delay := v x }, screen⟩
  | .setSound x => ⟨.ok .next, { cpu with timers.sound := v x }, screen⟩
  | .addIndex x =>
    let index := cpu.index + (v x).toUInt16
    let registers := cpu.registers.setFlag (0xFFF < index)
    ⟨.ok .next, { cpu with index, registers }, screen⟩
  | .setGlyph x => ⟨.ok .next, { cpu with index := Font.address (v x) }, screen⟩
  | .storeDecimal x =>
    match cpu.memory.write cpu.index (decimalDigits (v x)) with
    | .ok memory => ⟨.ok .next, { cpu with memory }, screen⟩
    | .error fault => ⟨.error fault, cpu, screen⟩
  | .store x =>
    match cpu.memory.write cpu.index (cpu.registers.through x) with
    | .ok memory => ⟨.ok .next, { cpu with memory, index := cpu.indexBehind x }, screen⟩
    | .error fault => ⟨.error fault, cpu, screen⟩
  | .load x =>
    match cpu.memory.read cpu.index (x.toNat + 1) with
    | .ok bytes =>
      let registers := cpu.registers.load bytes
      ⟨.ok .next, { cpu with registers, index := cpu.indexBehind x }, screen⟩
    | .error fault => ⟨.error fault, cpu, screen⟩

end Cpu

end Chip8
