import Chip8.Cpu.Run
import Chip8.Proofs.Memory.Access

/-!
# The effect of an instruction, part by part

Each part of the processor is changed by a few instructions only. For every part there
is a function that gives it after an instruction from what it was before, with one case
for each instruction that matters; executing the instruction agrees with all of them.
The same is done for whether an instruction is refused and for how the program counter
moves on. An executed instruction of a run is described by these functions alone.
-/

namespace Chip8

/-- How many bytes from the index on an instruction reads or stores. -/
def Instruction.span : Instruction → Nat
  | .draw _ _ height => height.toNat
  | .storeDecimal _ => 3
  | .store x | .load x => x.toNat + 1
  | _ => 0

namespace Cpu

/-- The fault for which an instruction is refused, if it is. -/
def refusal? (cpu : Cpu) (instruction : Instruction) : Option Fault :=
  match instruction with
  | .ret => if cpu.stack.pop?.isNone then some (.stackUnderflow cpu.counter) else none
  | .call _ =>
    if (cpu.stack.push? cpu.counter).isNone then some (.stackOverflow cpu.counter) else none
  | .draw .. | .load _ => Memory.readFault? cpu.index instruction.span
  | .storeDecimal _ | .store _ => Memory.writeFault? cpu.index instruction.span
  | _ => none

/-- How the program counter moves on after an instruction that is not refused. -/
def flow (cpu : Cpu) (keypad : Keypad) (instruction : Instruction) : Flow :=
  let v := cpu.registers.get
  match instruction with
  | .ret =>
    match cpu.stack.pop? with
    | some (caller, _) => .jump (caller + UInt16.ofNat Instruction.size)
    | none => .wait
  | .jump target | .call target => .jump target
  | .jumpOffset base => .jump (base + (v 0).toUInt16)
  | .skipIfByte x byte => .skipIf (v x == byte)
  | .skipUnlessByte x byte => .skipIf (v x != byte)
  | .skipIfSame x y => .skipIf (v x == v y)
  | .skipUnlessSame x y => .skipIf (v x != v y)
  | .skipIfDown x => .skipIf (keypad.isDown (v x))
  | .skipUnlessDown x => .skipIf (!keypad.isDown (v x))
  | .waitKey _ => if keypad.firstDown?.isNone then .wait else .next
  | _ => .next

/-- The call stack after an instruction. -/
def stackAfter (cpu : Cpu) : Instruction → CallStack
  | .ret => (cpu.stack.pop?.map Prod.snd).getD cpu.stack
  | .call _ => (cpu.stack.push? cpu.counter).getD cpu.stack
  | _ => cpu.stack

/-- The memory after an instruction that is not refused. -/
def memoryAfter (cpu : Cpu) : Instruction → Memory
  | .storeDecimal x =>
    cpu.memory.overwrite cpu.index.toNat (decimalDigits (cpu.registers.get x))
  | .store x => cpu.memory.overwrite cpu.index.toNat (cpu.registers.through x)
  | _ => cpu.memory

/-- The index after an instruction that is not refused. -/
def indexAfter (cpu : Cpu) : Instruction → UInt16
  | .setIndex address => address
  | .addIndex x => cpu.index + (cpu.registers.get x).toUInt16
  | .setGlyph x => Font.address (cpu.registers.get x)
  | .store x | .load x => cpu.indexBehind x
  | _ => cpu.index

/-- The timers after an instruction, before they tick. -/
def timersAfter (cpu : Cpu) : Instruction → Timers
  | .setDelay x => { cpu.timers with delay := cpu.registers.get x }
  | .setSound x => { cpu.timers with sound := cpu.registers.get x }
  | _ => cpu.timers

/-- The source of random numbers after an instruction. -/
def randomAfter (cpu : Cpu) : Instruction → Random
  | .random _ _ => cpu.random.advance
  | _ => cpu.random

variable (screen : Screen) (keypad : Keypad)

/-! ## Accesses to memory -/

theorem read_draw {cpu : Cpu} {x y height : UInt8}
    (h : cpu.refusal? (.draw x y height) = none) :
    ∃ rows, cpu.memory.read cpu.index height.toNat = .ok rows :=
  ⟨_, Memory.read_of_le cpu.memory (Memory.readFault?_eq_none_iff.mp h)⟩

theorem read_load {cpu : Cpu} {x : UInt8} (h : cpu.refusal? (.load x) = none) :
    ∃ bytes, cpu.memory.read cpu.index (x.toNat + 1) = .ok bytes :=
  ⟨_, Memory.read_of_le cpu.memory (Memory.readFault?_eq_none_iff.mp h)⟩

theorem write_storeDecimal {cpu : Cpu} {x : UInt8} (h : cpu.refusal? (.storeDecimal x) = none) :
    cpu.memory.write cpu.index (decimalDigits (cpu.registers.get x)) =
      .ok (cpu.memoryAfter (.storeDecimal x)) :=
  Memory.write_of_writeFault? cpu.memory h

theorem write_store {cpu : Cpu} {x : UInt8} (h : cpu.refusal? (.store x) = none) :
    cpu.memory.write cpu.index (cpu.registers.through x) = .ok (cpu.memoryAfter (.store x)) := by
  apply Memory.write_of_writeFault?
  rw [Registers.length_through]
  exact h

/-! ## Refusal and flow -/

/-- A refused instruction leaves processor and screen as they are. -/
theorem execute_of_refusal? {cpu : Cpu} {instruction : Instruction} {fault : Fault}
    (h : cpu.refusal? instruction = some fault) :
    cpu.execute screen keypad instruction = ⟨.error fault, cpu, screen⟩ := by
  cases instruction with
  | ret =>
    simp only [refusal?, Option.ite_none_right_eq_some, Option.some.injEq] at h
    obtain ⟨hpop, rfl⟩ := h
    simp only [execute, Option.isNone_iff_eq_none.mp hpop]
  | call target =>
    simp only [refusal?, Option.ite_none_right_eq_some, Option.some.injEq] at h
    obtain ⟨hpush, rfl⟩ := h
    simp only [execute, Option.isNone_iff_eq_none.mp hpush]
  | draw x y height =>
    have hread : cpu.memory.read cpu.index height.toNat = .error fault :=
      Memory.read_eq_error_iff.mpr h
    simp only [execute, hread]
  | storeDecimal x =>
    have hwrite : cpu.memory.write cpu.index (decimalDigits (cpu.registers.get x)) =
        .error fault := Memory.write_eq_error_iff.mpr h
    simp only [execute, hwrite]
  | store x =>
    have hwrite : cpu.memory.write cpu.index (cpu.registers.through x) = .error fault := by
      rw [Memory.write_eq_error_iff, Registers.length_through]
      exact h
    simp only [execute, hwrite]
  | load x =>
    have hread : cpu.memory.read cpu.index (x.toNat + 1) = .error fault :=
      Memory.read_eq_error_iff.mpr h
    simp only [execute, hread]
  | _ => cases h

/-- An instruction that is not refused is executed, and the program counter moves on as
its flow says. -/
theorem execute_result_of_refusal? {cpu : Cpu} {instruction : Instruction}
    (h : cpu.refusal? instruction = none) :
    (cpu.execute screen keypad instruction).result = .ok (cpu.flow keypad instruction) := by
  cases instruction with
  | ret =>
    cases hpop : cpu.stack.pop? with
    | none => simp [refusal?, hpop] at h
    | some top => simp only [execute, flow, hpop]
  | call target =>
    cases hpush : cpu.stack.push? cpu.counter with
    | none => simp [refusal?, hpush] at h
    | some next => simp only [execute, flow, hpush]
  | draw x y height =>
    obtain ⟨rows, hread⟩ := read_draw h
    simp only [execute, hread, flow]
  | waitKey x =>
    cases hkey : keypad.firstDown? with
    | none => simp [execute, flow, hkey]
    | some key => simp [execute, flow, hkey]
  | storeDecimal x => simp only [execute, write_storeDecimal h, flow]
  | store x => simp only [execute, write_store h, flow]
  | load x =>
    obtain ⟨bytes, hread⟩ := read_load h
    simp only [execute, hread, flow]
  | _ => rfl

/-- What is executed was not refused. -/
theorem refusal?_eq_none_of_result {cpu : Cpu} {instruction : Instruction} {flow : Flow}
    (h : (cpu.execute screen keypad instruction).result = .ok flow) :
    cpu.refusal? instruction = none := by
  cases hrefusal : cpu.refusal? instruction with
  | none => rfl
  | some fault =>
    rw [execute_of_refusal? screen keypad hrefusal] at h
    cases h

/-- An instruction that is not refused works on bytes inside the memory. -/
theorem index_add_span_le {cpu : Cpu} {instruction : Instruction}
    (h : cpu.refusal? instruction = none) (hspan : 0 < instruction.span) :
    cpu.index.toNat + instruction.span ≤ Memory.size := by
  cases instruction with
  | draw | load => exact Memory.readFault?_eq_none_iff.mp h
  | storeDecimal | store => exact ((Memory.writeFault?_eq_none_iff hspan).mp h).2
  | _ => cases hspan

/-- Only an instruction that waits for a key waits, and only while no key is down. -/
theorem flow_eq_wait_iff {cpu : Cpu} {instruction : Instruction}
    (h : cpu.refusal? instruction = none) :
    cpu.flow keypad instruction = .wait ↔
      (∃ x, instruction = .waitKey x) ∧ keypad.firstDown? = none := by
  cases instruction with
  | ret =>
    cases hpop : cpu.stack.pop? with
    | none => simp [refusal?, hpop] at h
    | some top => simp [flow, hpop]
  | waitKey x => simp [flow]
  | _ => simp [flow]

/-- An instruction that waits has changed nothing. -/
theorem execute_of_wait {cpu : Cpu} {instruction : Instruction}
    (h : cpu.refusal? instruction = none) (hwait : cpu.flow keypad instruction = .wait) :
    cpu.execute screen keypad instruction = ⟨.ok .wait, cpu, screen⟩ := by
  obtain ⟨⟨x, rfl⟩, hkey⟩ := (flow_eq_wait_iff keypad h).mp hwait
  simp only [execute, hkey]

/-! ## The parts -/

/-- No instruction moves the program counter by itself. -/
theorem execute_counter (cpu : Cpu) (instruction : Instruction) :
    (cpu.execute screen keypad instruction).cpu.counter = cpu.counter := by
  cases instruction with
  | ret | call | draw | waitKey | storeDecimal | store | load =>
    simp only [execute]
    split <;> rfl
  | _ => rfl

theorem execute_stack (cpu : Cpu) (instruction : Instruction) :
    (cpu.execute screen keypad instruction).cpu.stack = cpu.stackAfter instruction := by
  cases instruction with
  | ret =>
    cases hpop : cpu.stack.pop? <;> simp only [execute, stackAfter, hpop] <;> rfl
  | call target =>
    cases hpush : cpu.stack.push? cpu.counter <;> simp only [execute, stackAfter, hpush] <;> rfl
  | draw | waitKey | storeDecimal | store | load =>
    simp only [execute]
    split <;> rfl
  | _ => rfl

/-- A call notes its own address behind the pending ones, and a return takes the
innermost one off. -/
theorem frames_stackAfter {cpu : Cpu} {instruction : Instruction}
    (h : cpu.refusal? instruction = none) :
    (cpu.stackAfter instruction).frames =
      match instruction with
      | .ret => cpu.stack.frames.dropLast
      | .call _ => cpu.stack.frames ++ [cpu.counter]
      | _ => cpu.stack.frames := by
  cases instruction with
  | call target =>
    cases hpush : cpu.stack.push? cpu.counter with
    | none => simp [refusal?, hpush] at h
    | some next => simp only [stackAfter, hpush, Option.getD_some, CallStack.frames_of_push? hpush]
  | ret =>
    cases hpop : cpu.stack.pop? with
    | none => simp [refusal?, hpop] at h
    | some top =>
      simp only [stackAfter, hpop, Option.map_some, Option.getD_some,
        CallStack.frames_of_pop? hpop, List.dropLast_concat]
  | _ => rfl

/-- No instruction makes the stack deeper than it has slots. -/
theorem depth_stackAfter_le {cpu : Cpu} (h : cpu.stack.depth ≤ CallStack.capacity)
    (instruction : Instruction) :
    (cpu.stackAfter instruction).depth ≤ CallStack.capacity := by
  cases instruction with
  | call target =>
    cases hpush : cpu.stack.push? cpu.counter with
    | none => simpa only [stackAfter, hpush, Option.getD_none] using h
    | some next =>
      have hdepth := CallStack.depth_of_push? hpush
      have hroom : ¬CallStack.capacity ≤ cpu.stack.depth := by
        rw [← CallStack.push?_eq_none_iff, hpush]
        exact Option.some_ne_none next
      simp only [stackAfter, hpush, Option.getD_some]
      omega
  | ret =>
    cases hpop : cpu.stack.pop? with
    | none => simpa only [stackAfter, hpop, Option.map_none, Option.getD_none] using h
    | some top =>
      have hdepth := CallStack.depth_of_pop? hpop
      simp only [stackAfter, hpop, Option.map_some, Option.getD_some]
      omega
  | _ => exact h

theorem execute_timers (cpu : Cpu) (instruction : Instruction) :
    (cpu.execute screen keypad instruction).cpu.timers = cpu.timersAfter instruction := by
  cases instruction with
  | ret | call | draw | waitKey | storeDecimal | store | load =>
    simp only [execute]
    split <;> rfl
  | _ => rfl

theorem execute_random (cpu : Cpu) (instruction : Instruction) :
    (cpu.execute screen keypad instruction).cpu.random = cpu.randomAfter instruction := by
  cases instruction with
  | ret | call | draw | waitKey | storeDecimal | store | load =>
    simp only [execute]
    split <;> rfl
  | _ => rfl

theorem execute_memory {cpu : Cpu} {instruction : Instruction}
    (h : cpu.refusal? instruction = none) :
    (cpu.execute screen keypad instruction).cpu.memory = cpu.memoryAfter instruction := by
  cases instruction with
  | storeDecimal x => simp only [execute, write_storeDecimal h]
  | store x => simp only [execute, write_store h]
  | ret | call | draw | waitKey | load =>
    simp only [execute]
    split <;> rfl
  | _ => rfl

theorem execute_index {cpu : Cpu} {instruction : Instruction}
    (h : cpu.refusal? instruction = none) :
    (cpu.execute screen keypad instruction).cpu.index = cpu.indexAfter instruction := by
  cases instruction with
  | store x => simp only [execute, write_store h, indexAfter]
  | load x =>
    obtain ⟨bytes, hread⟩ := read_load h
    simp only [execute, hread, indexAfter]
  | ret | call | draw | waitKey | storeDecimal =>
    simp only [execute]
    split <;> rfl
  | _ => rfl

end Cpu

end Chip8
