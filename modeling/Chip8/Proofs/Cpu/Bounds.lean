import Chip8.Proofs.Cpu.Progress
import Chip8.Proofs.Instruction.Operands

/-!
# Bounds that every run keeps

The program counter, the call stack and the addresses of the pending calls stay within
bounds. A jump may lead behind the end of the memory, but no farther than its operands
reach; nothing is executed there, so every address that a call notes has a whole
instruction behind it. Within these bounds no sum of the processor leaves its type and
no slot is used that an array does not have.
-/

namespace Chip8.Cpu

/-- The bounds that every step keeps. -/
structure Bounded (cpu : Cpu) : Prop where
  /-- The farthest jump goes to the last address with a whole byte added. -/
  counter_le : cpu.counter.toNat ≤ 0x10FE
  /-- There are no more pending calls than slots. -/
  depth_le : cpu.stack.depth ≤ CallStack.capacity
  /-- A pending call was fetched from inside the memory. -/
  frames_le : ∀ address ∈ cpu.stack.frames, address.toNat ≤ 0xFFE

/-- Addition of words is addition of numbers as long as the sum is a word. -/
theorem toNat_add_of_lt {a b : UInt16} (h : a.toNat + b.toNat < 0x10000) :
    (a + b).toNat = a.toNat + b.toNat := by
  rw [UInt16.toNat_add]
  exact Nat.mod_eq_of_lt h

/-- Wherever an instruction may lie, the places up to two instructions on are words. -/
theorem toNat_behind {address : UInt16} {offset : Nat} (h : address.toNat ≤ 0x10FE)
    (hoffset : offset ≤ 2 * Instruction.size) :
    (address + UInt16.ofNat offset).toNat = address.toNat + offset := by
  rw [Instruction.size] at hoffset
  have hword : (UInt16.ofNat offset).toNat = offset :=
    UInt16.toNat_ofNat_of_lt' (Nat.lt_of_le_of_lt hoffset (by decide))
  rw [toNat_add_of_lt, hword]
  omega

/-- The initial state is within the bounds. -/
theorem bounded_ofSource (rom : Rom) (random : Random) : (ofSource rom random).Bounded := by
  refine ⟨?_, ?_, ?_⟩
  · change (UInt16.ofNat Memory.programStart).toNat ≤ 0x10FE
    decide
  · exact Nat.zero_le _
  · intro address haddress
    cases haddress

variable {cpu : Cpu} {loan : Loan} {instruction : Instruction}

/-- An instruction is fetched from inside the memory. -/
theorem Executes.counter_le (h : cpu.Executes loan instruction) : cpu.counter.toNat ≤ 0xFFE := by
  have hfetched := counter_le_of_peek h.peek
  simp only [Instruction.size, Memory.size] at hfetched
  omega

/-- The operands of an executed instruction fit into an opcode. -/
theorem Executes.fits (h : cpu.Executes loan instruction) : instruction.Fits := by
  obtain ⟨opcode, -, hdecode⟩ := peek_eq_some_iff.mp h.peek
  exact Instruction.fits_of_decode? hdecode

/-- The innermost pending call is one of the pending calls. -/
theorem Bounded.caller_le (h : cpu.Bounded) {caller : UInt16} {stack : CallStack}
    (hpop : cpu.stack.pop? = some (caller, stack)) : caller.toNat ≤ 0xFFE := by
  apply h.frames_le
  rw [CallStack.frames_of_pop? hpop]
  exact List.mem_append_right _ (List.mem_singleton_self caller)

/-- The word that a register is widened to is small. -/
theorem toNat_toUInt16_le (value : UInt8) : value.toUInt16.toNat ≤ 0xFF := by
  have hlt := value.toNat_lt
  rw [UInt8.toNat_toUInt16]
  omega

/-- Jumps stay within the bounds of the program counter. -/
theorem Bounded.jump_le (h : cpu.Bounded) (hfits : instruction.Fits) {keypad : Keypad}
    {target : UInt16} (hjump : cpu.flow keypad instruction = .jump target) :
    target.toNat ≤ 0x10FE := by
  cases instruction with
  | ret =>
    cases hpop : cpu.stack.pop? with
    | none => simp [flow, hpop] at hjump
    | some top =>
      have hcaller := h.caller_le hpop
      simp only [flow, hpop, Flow.jump.injEq] at hjump
      rw [← hjump, toNat_behind (by omega) (by decide), Instruction.size]
      omega
  | jump address | call address =>
    cases hjump
    simp only [Instruction.Fits] at hfits
    omega
  | jumpOffset base =>
    cases hjump
    have hbase : base.toNat < 0x1000 := hfits
    have hoffset := toNat_toUInt16_le (cpu.registers.get 0)
    rw [toNat_add_of_lt (by omega)]
    omega
  | waitKey x =>
    simp only [flow] at hjump
    split at hjump <;> cases hjump
  | _ => simp [flow] at hjump

/-- An executed instruction leaves the program counter within its bounds. -/
theorem Bounded.counter_after_le (h : cpu.Bounded) (hexec : cpu.Executes loan instruction) :
    (cpu.after loan).counter.toNat ≤ 0x10FE := by
  have hcounter := hexec.counter_le
  have htarget := hexec.counter
  cases hflow : cpu.flow loan.keypad instruction with
  | next =>
    rw [hflow] at htarget
    rw [← Option.some.inj htarget, toNat_behind h.counter_le (by decide), Instruction.size]
    omega
  | skip =>
    rw [hflow] at htarget
    rw [← Option.some.inj htarget, toNat_behind h.counter_le (by decide), Instruction.size]
    omega
  | jump target =>
    have hle := h.jump_le hexec.fits hflow
    rw [hflow] at htarget
    exact Option.some.inj htarget ▸ hle
  | wait =>
    rw [hflow] at htarget
    cases htarget

/-- A step keeps the bounds. -/
theorem Bounded.after (h : cpu.Bounded) (loan : Loan) : (cpu.after loan).Bounded := by
  obtain ⟨instruction, hexec, -⟩ | ⟨heq, -⟩ := cpu.executes_or_after_eq loan
  · refine ⟨h.counter_after_le hexec, ?_, ?_⟩
    · rw [hexec.stack]
      exact depth_stackAfter_le h.depth_le instruction
    · intro address haddress
      rw [hexec.stack, frames_stackAfter hexec.accepted] at haddress
      cases instruction with
      | call target =>
        rcases List.mem_append.mp haddress with hold | hnew
        · exact h.frames_le address hold
        · rw [List.mem_singleton.mp hnew]
          exact hexec.counter_le
      | ret => exact h.frames_le address (List.dropLast_subset _ haddress)
      | _ => exact h.frames_le address haddress
  · rw [heq]
    exact h

/-- A run keeps the bounds. -/
theorem Bounded.run (h : cpu.Bounded) (loans : List Loan) : (cpu.run loans).Bounded := by
  induction loans generalizing cpu with
  | nil => exact h
  | cons loan loans ih => exact ih (h.after loan)

/-! ## Exact arithmetic -/

/-- Every sum and difference that the processor forms is the one of numbers, and every
place of an array that it uses is there. Sums of addresses and lengths are formed in
words of at least 32 bits. -/
structure Exact (cpu : Cpu) : Prop where
  /-- Behind an instruction. -/
  next : (Flow.next.target? cpu.counter).map UInt16.toNat = some (cpu.counter.toNat + 2)
  /-- Behind an instruction and the one that is skipped. -/
  skip : (Flow.skip.target? cpu.counter).map UInt16.toNat = some (cpu.counter.toNat + 4)
  /-- A return reads the slot below the pointer, moves the pointer there, and goes on
  behind the call. -/
  pop : ∀ caller stack, cpu.stack.pop? = some (caller, stack) →
    stack.pointer.toNat + 1 = cpu.stack.pointer.toNat ∧
      stack.pointer.toNat < CallStack.capacity ∧
      cpu.stack.slots[stack.pointer.toNat]? = some caller ∧
      (caller + UInt16.ofNat Instruction.size).toNat = caller.toNat + 2
  /-- Only an empty stack has no slot to read. -/
  pop_none : cpu.stack.pop? = none ↔ cpu.stack.pointer = 0
  /-- A call fills the slot at the pointer and moves the pointer up. -/
  push : ∀ address stack, cpu.stack.push? address = some stack →
    stack.pointer.toNat = cpu.stack.pointer.toNat + 1 ∧
      cpu.stack.pointer.toNat < CallStack.capacity ∧
      stack.slots[cpu.stack.pointer.toNat]? = some address
  /-- A jump with an offset. -/
  offset : ∀ opcode base, Instruction.decode? opcode = some (.jumpOffset base) →
    (base + (cpu.registers.get 0).toUInt16).toNat = base.toNat + (cpu.registers.get 0).toNat
  /-- The address of a glyph, whatever its number. -/
  glyph : ∀ x, (Font.address (cpu.registers.get x)).toNat =
    Font.start + (cpu.registers.get x).toNat * Font.glyphSize
  /-- The timers. -/
  tick : cpu.timers.tick.delay.toNat = cpu.timers.delay.toNat - 1 ∧
    cpu.timers.tick.sound.toNat = cpu.timers.sound.toNat - 1
  /-- The end of the fetched word. -/
  fetch : cpu.counter.toNat + Instruction.size < 0x100000000
  /-- The end of the bytes that an instruction works on. -/
  span : ∀ opcode instruction, Instruction.decode? opcode = some instruction →
    cpu.index.toNat + instruction.span < 0x100000000
  /-- The index behind stored registers. -/
  store : ∀ screen keypad x flow, (cpu.execute screen keypad (.store x)).result = .ok flow →
    (cpu.indexBehind x).toNat = cpu.index.toNat + x.toNat + 1
  /-- The index behind loaded registers. -/
  load : ∀ screen keypad x flow, (cpu.execute screen keypad (.load x)).result = .ok flow →
    (cpu.indexBehind x).toNat = cpu.index.toNat + x.toNat + 1
  /-- The place of a register. -/
  register : ∀ x, (Registers.index x).val = x.toNat % 16 ∧ (Registers.index x).val < 16
  /-- The place of a key. -/
  key : ∀ x, (Keypad.index x).val = x.toNat % 16 ∧ (Keypad.index x).val < 16
  /-- The place of a pixel. -/
  pixel : ∀ x y, (Screen.cell x y).val = x % 64 + y % 32 * 64 ∧ (Screen.cell x y).val < 2048

/-- The index behind registers in memory is inside the address space. -/
theorem toNat_indexBehind {x : UInt8} (h : cpu.index.toNat + (x.toNat + 1) ≤ Memory.size) :
    (cpu.indexBehind x).toNat = cpu.index.toNat + x.toNat + 1 := by
  simp only [Memory.size] at h
  have hone : (1 : UInt16).toNat = 1 := rfl
  have hx : x.toUInt16.toNat = x.toNat := UInt8.toNat_toUInt16 x
  have hlast : (cpu.index + x.toUInt16).toNat = cpu.index.toNat + x.toNat := by
    rw [toNat_add_of_lt (by omega), hx]
  rw [indexBehind, toNat_add_of_lt (by omega), hlast, hone]

/-- A glyph's address is a multiple of its number without a carry. -/
theorem toNat_glyphAddress (number : UInt8) :
    (Font.address number).toNat = Font.start + number.toNat * Font.glyphSize := by
  have hlt := number.toNat_lt
  simp only [Font.address, Font.start, Font.glyphSize, UInt16.toNat_add, UInt16.toNat_mul,
    UInt16.toNat_ofNat', UInt8.toNat_toUInt16]
  omega

/-- No instruction works on more than sixteen bytes. -/
theorem span_le {opcode : UInt16} (h : Instruction.decode? opcode = some instruction) :
    instruction.span ≤ 16 := by
  have hfits := Instruction.fits_of_decode? h
  cases instruction <;> simp only [Instruction.span, Instruction.Fits] at hfits ⊢ <;> omega

/-- A return reads a slot that there is. -/
theorem exact_pop {caller : UInt16} {stack : CallStack} (h : cpu.Bounded)
    (hpop : cpu.stack.pop? = some (caller, stack)) :
    stack.pointer.toNat + 1 = cpu.stack.pointer.toNat ∧
      stack.pointer.toNat < CallStack.capacity ∧
      cpu.stack.slots[stack.pointer.toNat]? = some caller ∧
      (caller + UInt16.ofNat Instruction.size).toNat = caller.toNat + 2 := by
  have hdepth : cpu.stack.depth = stack.depth + 1 := CallStack.depth_of_pop? hpop
  have hle := h.depth_le
  have hcaller := h.caller_le hpop
  refine ⟨hdepth.symm, by simp only [CallStack.depth] at hdepth hle; omega, ?_,
    toNat_behind (by omega) (by decide)⟩
  unfold CallStack.pop? at hpop
  split at hpop
  · cases hpop
  · obtain ⟨address, hslot, htop⟩ := Option.map_eq_some_iff.mp hpop
    rw [hdepth, Nat.add_sub_cancel, (Prod.mk.inj htop).1] at hslot
    exact hslot

/-- A call fills a slot that there is. -/
theorem exact_push {address : UInt16} {stack : CallStack}
    (hpush : cpu.stack.push? address = some stack) :
    stack.pointer.toNat = cpu.stack.pointer.toNat + 1 ∧
      cpu.stack.pointer.toNat < CallStack.capacity ∧
      stack.slots[cpu.stack.pointer.toNat]? = some address := by
  have hdepth : stack.depth = cpu.stack.depth + 1 := CallStack.depth_of_push? hpush
  unfold CallStack.push? at hpush
  split at hpush
  next hlt =>
    refine ⟨hdepth, hlt, ?_⟩
    rw [← congrArg CallStack.slots (Option.some.inj hpush)]
    exact Vector.getElem?_set_self hlt
  · cases hpush

/-- Within the bounds arithmetic is exact. -/
theorem Bounded.exact (h : cpu.Bounded) : cpu.Exact where
  next := congrArg some (toNat_behind h.counter_le (by decide))
  skip := congrArg some (toNat_behind h.counter_le (by decide))
  pop := fun _ _ hpop => exact_pop h hpop
  pop_none := by
    rw [CallStack.pop?_eq_none_iff h.depth_le]
    exact ⟨fun hzero => UInt8.toNat_inj.mp hzero, fun hzero => congrArg UInt8.toNat hzero⟩
  push := fun _ _ hpush => exact_push hpush
  offset := by
    intro opcode base hdecode
    have hbase : base.toNat < 0x1000 := Instruction.fits_of_decode? hdecode
    have hoffset := toNat_toUInt16_le (cpu.registers.get 0)
    rw [toNat_add_of_lt (by omega), UInt8.toNat_toUInt16]
  glyph := fun x => toNat_glyphAddress (cpu.registers.get x)
  tick := ⟨Timers.toNat_countDown _, Timers.toNat_countDown _⟩
  fetch := by
    have hcounter := h.counter_le
    simp only [Instruction.size]
    omega
  span := by
    intro opcode instruction hdecode
    have hspan := span_le hdecode
    have hindex := cpu.index.toNat_lt
    omega
  store := by
    intro screen keypad x flow hresult
    have haccepted := refusal?_eq_none_of_result screen keypad hresult
    exact toNat_indexBehind (index_add_span_le haccepted (Nat.succ_pos _))
  load := by
    intro screen keypad x flow hresult
    have haccepted := refusal?_eq_none_of_result screen keypad hresult
    exact toNat_indexBehind (index_add_span_le haccepted (Nat.succ_pos _))
  register := fun x => ⟨rfl, (Registers.index x).isLt⟩
  key := fun x => ⟨rfl, (Keypad.index x).isLt⟩
  pixel := fun x y => ⟨rfl, (Screen.cell x y).isLt⟩

/-- In every state that a run leads to, the program counter is at most `0x10FE`, at most
sixteen calls are pending, each from an address inside the memory, and so all arithmetic
is exact and every place of an array is there. -/
theorem run_bounded_and_exact (rom : Rom) (random : Random) (loans : List Loan) :
    ((ofSource rom random).run loans).Bounded ∧ ((ofSource rom random).run loans).Exact := by
  have hbounded := (bounded_ofSource rom random).run loans
  exact ⟨hbounded, hbounded.exact⟩

end Chip8.Cpu
