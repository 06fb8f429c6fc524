import Chip8.Proofs.Cpu.Control
import Mathlib.Data.Nat.Bitwise

/-!
# Arithmetic and flags

Thirteen rows of the table compute a number from their operands and put it into a register
or into the index; some set the flag as well. The operands are read first and the flag is
written last, so a computation that has the flag register for its operand sees the old flag,
and one that has it for its target keeps the new one.
-/

namespace Chip8

/-- Where a result goes. -/
inductive Target where
  /-- Into the register with a given number. -/
  | register (number : Nat)
  /-- Into the index. -/
  | index
  deriving DecidableEq, Repr

/-- What an opcode computes. -/
structure Computation where
  /-- Where the result goes. -/
  target : Target
  /-- The result. -/
  result : Nat
  /-- The flag, if one is set. -/
  flag? : Option Nat
  deriving DecidableEq, Repr

namespace Cpu

/-- What the opcode at the program counter computes, provided that its row is one of
arithmetic. The operands are what registers and index hold before the step. -/
def computation? (cpu : Cpu) : Option Computation :=
  let opcode := cpu.opcode
  let byte := opcode % 0x100
  let x := opcode / 0x100 % 0x10
  let a := cpu.registers.value x
  let b := cpu.registers.value (opcode / 0x10 % 0x10)
  match opcode / 0x1000 with
  | 0x7 => some ⟨.register x, (a + byte) % 256, none⟩
  | 0x8 =>
    match opcode % 0x10 with
    | 0x0 => some ⟨.register x, b, none⟩
    | 0x1 => some ⟨.register x, a ||| b, none⟩
    | 0x2 => some ⟨.register x, a &&& b, none⟩
    | 0x3 => some ⟨.register x, a ^^^ b, none⟩
    | 0x4 => some ⟨.register x, (a + b) % 256, some (if 255 < a + b then 1 else 0)⟩
    | 0x5 => some ⟨.register x, (256 + a - b) % 256, some (if b ≤ a then 1 else 0)⟩
    | 0x6 => some ⟨.register x, a / 2, some (a % 2)⟩
    | 0x7 => some ⟨.register x, (256 + b - a) % 256, some (if a ≤ b then 1 else 0)⟩
    | 0xE => some ⟨.register x, 2 * a % 256, some (a / 128)⟩
    | _ => none
  | 0xA => some ⟨.index, opcode % 0x1000, none⟩
  | 0xF =>
    match byte with
    | 0x1E =>
      let index := (cpu.index.toNat + a) % 65536
      some ⟨.index, index, some (if 0xFFF < index then 1 else 0)⟩
    | 0x29 => some ⟨.index, 5 * a, none⟩
    | _ => none
  | _ => none

end Cpu

/-- A computation was carried out between two states, and nothing else happened to
registers and index. -/
structure Computation.CarriedOut (computation : Computation) (before after : Cpu) : Prop where
  /-- The last register holds the flag, even if it is the target as well. -/
  flag : ∀ flag, computation.flag? = some flag → after.registers.value 0xF = flag
  /-- Another register holds the result, if it is the target, or what it held before. -/
  register : ∀ k, k < 16 → (k = 0xF → computation.flag? = none) →
    after.registers.value k =
      if computation.target = .register k then computation.result
      else before.registers.value k
  /-- So does the index. -/
  index : after.index.toNat =
    if computation.target = .index then computation.result else before.index.toNat

/-! ## Registers by number -/

namespace Registers

variable {registers : Registers} {x value : UInt8} {k : Nat}

private theorem index_eq_iff (hx : x.toNat < 16) (hk : k < 16) :
    index x = index (UInt8.ofNat k) ↔ x.toNat = k := by
  simp only [index, count, Fin.ext_iff, UInt8.toNat_ofNat']
  omega

theorem value_set (hx : x.toNat < 16) (hk : k < 16) :
    (registers.set x value).value k = if x.toNat = k then value.toNat else registers.value k := by
  simp only [Registers.value, get_set, index_eq_iff hx hk]
  split <;> rfl

theorem value_setFlag {on : Bool} (hk : k < 16) :
    (registers.setFlag on).value k = if k = 0xF then on.toNat else registers.value k := by
  have hflag : flag.toNat = k ↔ k = 0xF := eq_comm
  rw [setFlag, value_set (by decide) hk]
  simp only [hflag]
  cases on <;> rfl

end Registers

namespace Computation

variable {cpu : Cpu} {x value : UInt8} {result : Nat} {flag : Nat} {on : Bool} {index : UInt16}

/-- A register is set. -/
theorem carriedOut_set (hx : x.toNat < 16) (hresult : value.toNat = result) :
    (Computation.mk (.register x.toNat) result none).CarriedOut cpu
      { cpu with registers := cpu.registers.set x value } where
  flag := by simp
  register := by
    intro k hk _
    simp only [Registers.value_set hx hk, hresult, Target.register.injEq]
  index := by simp

/-- The index is set. -/
theorem carriedOut_index (hresult : index.toNat = result) :
    (Computation.mk .index result none).CarriedOut cpu { cpu with index } where
  flag := by simp
  register := by simp
  index := by simp [hresult]

/-- The flag comes last, so it is the flag that remains in its register. -/
theorem CarriedOut.setFlag {target : Target} {before after : Cpu}
    (h : (Computation.mk target result none).CarriedOut before after) (hflag : on.toNat = flag) :
    (Computation.mk target result (some flag)).CarriedOut before
      { after with registers := after.registers.setFlag on } where
  flag := by
    intro flag' hflag'
    cases hflag'
    rw [Registers.value_setFlag (by decide), if_pos rfl, hflag]
  register := by
    intro k hk hlast
    have hk' : k ≠ 0xF := fun h => Option.some_ne_none flag (hlast h)
    rw [Registers.value_setFlag hk, if_neg hk']
    exact h.register k hk fun _ => rfl
  index := h.index

end Computation

namespace Cpu

variable {cpu : Cpu} {instruction : Instruction} {c : Computation} (screen : Screen)
  (keypad : Keypad)

/-! ## Bytes as numbers -/

private theorem toNat_sub (a b : UInt8) : (a - b).toNat = (256 + a.toNat - b.toNat) % 256 := by
  have hb := b.toNat_lt
  rw [UInt8.toNat_sub]
  omega

private theorem toNat_half (a : UInt8) : (a >>> 1).toNat = a.toNat / 2 := by
  rw [UInt8.toNat_shiftRight]
  exact Nat.shiftRight_eq_div_pow _ 1

private theorem toNat_double (a : UInt8) : (a <<< 1).toNat = 2 * a.toNat % 256 := by
  rw [UInt8.toNat_shiftLeft, Nat.mul_comm]
  exact congrArg (· % 256) (Nat.shiftLeft_eq _ 1)

/-- A mask of one bit finds this bit of the number. -/
private theorem toNat_and_ne_zero {a mask : UInt8} {i : Nat} (hmask : mask.toNat = 2 ^ i) :
    (a &&& mask != 0).toNat = a.toNat / 2 ^ i % 2 := by
  have hbit : (a &&& mask != 0) = a.toNat.testBit i := by
    rw [Bool.eq_iff_iff, bne_iff_ne, ne_eq, ← UInt8.toNat_inj, UInt8.toNat_and, hmask,
      Nat.and_two_pow]
    cases a.toNat.testBit i <;> simp
  rw [hbit, Nat.toNat_testBit]

private theorem toNat_lowest (a : UInt8) : (a &&& 0x01 != 0).toNat = a.toNat % 2 := by
  have hmask : (0x01 : UInt8).toNat = 2 ^ 0 := rfl
  rw [toNat_and_ne_zero hmask, pow_zero, Nat.div_one]

private theorem toNat_highest (a : UInt8) : (a &&& 0x80 != 0).toNat = a.toNat / 128 := by
  have hlt := a.toNat_lt
  have hmask : (0x80 : UInt8).toNat = 2 ^ 7 := rfl
  rw [toNat_and_ne_zero hmask]
  omega

private theorem toNat_decide (p : Prop) [Decidable p] :
    (decide p).toNat = if p then 1 else 0 := by
  by_cases h : p <;> simp [h]

/-! ## Instructions that compute -/

/-- An opcode that computes stands for an instruction. -/
theorem exists_row_of_computation? (hcounter : cpu.counter.toNat ≤ 0xFFE)
    (h : cpu.computation? = some c) :
    ∃ instruction, cpu.peek = .ok (some instruction) ∧
      Opcode.StandsFor cpu.opcode instruction := by
  obtain ⟨word, hfetch, hword⟩ := exists_fetch hcounter
  cases hdecode : Instruction.decode? word with
  | none =>
    have hunlisted := Instruction.decode?_eq_none_iff.mp hdecode
    rw [hword] at hunlisted
    exfalso
    obtain ⟨hfamily, -⟩ | ⟨hfamily, -⟩ | ⟨hfamily, hdigit⟩ | ⟨hfamily, -⟩ | ⟨hfamily, hbyte⟩ :=
      hunlisted
    · simp [computation?, hfamily] at h
    · simp [computation?, hfamily] at h
    · simp only [computation?, hfamily] at h
      split at h <;> first | contradiction | omega
    · simp [computation?, hfamily] at h
    · simp only [computation?, hfamily] at h
      split at h
      · next hsum => simp [hsum] at hbyte
      · next hglyph => simp [hglyph] at hbyte
      · cases h
  | some instruction =>
    have hrow := Instruction.standsFor_of_decode? hdecode
    exact ⟨instruction, peek_eq_some_iff.mpr ⟨word, hfetch, hdecode⟩, hword ▸ hrow⟩

/-- Such an instruction carries the computation out and does nothing else. -/
theorem execute_of_computation? (hrow : Opcode.StandsFor cpu.opcode instruction)
    (h : cpu.computation? = some c) :
    ∃ registers index, c.CarriedOut cpu { cpu with registers, index } ∧
      cpu.execute screen keypad instruction =
        ⟨.ok .next, { cpu with registers, index }, screen⟩ := by
  cases instruction with
  | addByte x byte =>
    obtain ⟨hfamily, hx, hbyte⟩ := hrow
    simp only [computation?, hfamily, hx, hbyte, Registers.value_toNat, Option.some.injEq] at h
    subst h
    exact ⟨_, _, Computation.carriedOut_set (by omega) (UInt8.toNat_add _ _), rfl⟩
  | copy x y | or x y | and x y | xor x y =>
    obtain ⟨hfamily, hdigit, hx, hy⟩ := hrow
    simp only [computation?, hfamily, hdigit, hx, hy, Registers.value_toNat,
      Option.some.injEq] at h
    subst h
    refine ⟨_, _, Computation.carriedOut_set (by omega) ?_, rfl⟩
    simp only [UInt8.toNat_or, UInt8.toNat_and, UInt8.toNat_xor]
  | add x y | sub x y | subFrom x y =>
    obtain ⟨hfamily, hdigit, hx, hy⟩ := hrow
    simp only [computation?, hfamily, hdigit, hx, hy, Registers.value_toNat,
      Option.some.injEq] at h
    subst h
    refine ⟨_, _, (Computation.carriedOut_set (by omega) ?_).setFlag ?_, rfl⟩
    · simp only [UInt8.toNat_add, toNat_sub, Nat.reducePow]
    · simp only [toNat_decide, UInt8.le_iff_toNat_le]
  | shiftRight x | shiftLeft x =>
    obtain ⟨hfamily, hdigit, hx⟩ := hrow
    simp only [computation?, hfamily, hdigit, hx, Registers.value_toNat, Option.some.injEq] at h
    subst h
    refine ⟨_, _, (Computation.carriedOut_set (by omega) ?_).setFlag ?_, rfl⟩
    · simp only [toNat_half, toNat_double]
    · simp only [toNat_lowest, toNat_highest]
  | setIndex address =>
    obtain ⟨hfamily, haddress⟩ := hrow
    simp only [computation?, hfamily, haddress, Option.some.injEq] at h
    subst h
    exact ⟨_, _, Computation.carriedOut_index rfl, rfl⟩
  | addIndex x =>
    obtain ⟨hfamily, hbyte, hx⟩ := hrow
    simp only [computation?, hfamily, hbyte, hx, Registers.value_toNat, Option.some.injEq] at h
    subst h
    have hsum : (cpu.index + (cpu.registers.get x).toUInt16).toNat =
        (cpu.index.toNat + (cpu.registers.get x).toNat) % 65536 := by
      rw [UInt16.toNat_add, UInt8.toNat_toUInt16]
    refine ⟨_, _, (Computation.carriedOut_index hsum).setFlag ?_, rfl⟩
    rw [← hsum]
    exact toNat_decide (0xFFF < cpu.index + (cpu.registers.get x).toUInt16)
  | setGlyph x =>
    obtain ⟨hfamily, hbyte, hx⟩ := hrow
    simp only [computation?, hfamily, hbyte, hx, Registers.value_toNat, Option.some.injEq] at h
    subst h
    refine ⟨_, _, Computation.carriedOut_index ?_, rfl⟩
    rw [toNat_glyphAddress, Font.start, Font.glyphSize, Nat.zero_add, Nat.mul_comm]
  | _ =>
    simp only [Opcode.StandsFor] at hrow
    simp [computation?, hrow] at h

/-! ## Steps that compute -/

/-- A step whose instruction goes on to the next one. -/
theorem step_of_next {after : Cpu} {drawn : Screen} (hpeek : cpu.peek = .ok (some instruction))
    (hexecute : cpu.execute screen keypad instruction = ⟨.ok .next, after, drawn⟩) :
    cpu.step screen keypad =
      ⟨.ok (.progressed after.timers.expiring),
        { after with
          counter := after.counter + UInt16.ofNat Instruction.size
          timers := after.timers.tick },
        drawn⟩ := by
  obtain ⟨opcode, hfetch, hdecode⟩ := peek_eq_some_iff.mp hpeek
  simp only [step, hfetch, hdecode, hexecute]
  rfl

/-- In every state that a run leads to, an opcode of arithmetic inside the memory is carried
out: the flag register ends as the flag, if there is one, whatever the operands and the
target are; the target holds the result, all other registers and the index are as before,
and so are the memory, the call stack, the source of random numbers and the screen. -/
theorem arithmetic_carried_out (rom : Rom) (random : Random) (loans : List Loan)
    (screen : Screen) (keypad : Keypad) :
    let cpu := (ofSource rom random).run loans
    let outcome := cpu.step screen keypad
    ∀ computation, cpu.counter.toNat ≤ 0xFFE → cpu.computation? = some computation →
      (∃ tone, outcome.result = .ok (.progressed tone)) ∧
      computation.CarriedOut cpu outcome.cpu ∧
      outcome.cpu.memory = cpu.memory ∧ outcome.cpu.stack = cpu.stack ∧
      outcome.cpu.random = cpu.random ∧ outcome.screen = screen := by
  intro cpu outcome computation hcounter hcomputation
  obtain ⟨instruction, hpeek, hrow⟩ := exists_row_of_computation? hcounter hcomputation
  obtain ⟨registers, index, hcarried, hexecute⟩ :=
    execute_of_computation? screen keypad hrow hcomputation
  have hstep : outcome = _ := step_of_next screen keypad hpeek hexecute
  rw [hstep]
  exact ⟨⟨_, rfl⟩, ⟨hcarried.flag, hcarried.register, hcarried.index⟩, rfl, rfl, rfl, rfl⟩

/-- Twice 200 in the flag register: the sum is lost, and the carry is all that remains. -/
theorem carry_replaces_sum_in_flag_register :
    let rom : Rom := ⟨[0x6F, 0xC8, 0x8F, 0xF4], by decide⟩
    let cpu := (ofSource rom (Random.ofSeed 0)).run [⟨Screen.blank, Keypad.empty⟩]
    cpu.counter.toNat ≤ 0xFFE ∧ cpu.computation? = some ⟨.register 0xF, 144, some 1⟩ ∧
      (cpu.step Screen.blank Keypad.empty).cpu.registers.value 0xF = 1 := by
  intro rom cpu
  have hcounter : cpu.counter.toNat ≤ 0xFFE := by decide +kernel
  have hcomputation : cpu.computation? = some ⟨.register 0xF, 144, some 1⟩ := by decide +kernel
  obtain ⟨-, hcarried, -⟩ := arithmetic_carried_out rom (Random.ofSeed 0)
    [⟨Screen.blank, Keypad.empty⟩] Screen.blank Keypad.empty _ hcounter hcomputation
  exact ⟨hcounter, hcomputation, hcarried.flag 1 rfl⟩

end Cpu

end Chip8
