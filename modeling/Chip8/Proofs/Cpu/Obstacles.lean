import Chip8.Proofs.Cpu.Calls
import Chip8.Proofs.Cpu.Refusal
import Chip8.Proofs.Instruction.Table

/-!
# What stands in the way of a step

A step can meet eight obstacles. Each of them shows in a few numbers: the program counter,
the opcode there, the index, and how many calls are pending. At most one of them stands in
the way at a time, it determines the fault, and where there is none the step is made.
-/

namespace Chip8

/-- What can stand in the way of a step. -/
inductive Obstacle where
  /-- The program counter leaves no room for an opcode. -/
  | behindEnd
  /-- The opcode is in no row of the table. -/
  | unlisted
  /-- A call finds every slot in use. -/
  | fullStack
  /-- A return finds no pending call. -/
  | emptyStack
  /-- A sprite reaches behind the end of the memory. -/
  | spriteBehindEnd
  /-- Decimal digits reach behind the end of the memory. -/
  | digitsBehindEnd
  /-- Stored or loaded registers reach behind the end of the memory. -/
  | registersBehindEnd
  /-- A store begins among the glyphs. -/
  | storeOverGlyphs
  deriving DecidableEq, Repr

namespace Cpu

/-- The opcode at the program counter, as a number. -/
def opcode (cpu : Cpu) : Nat := cpu.memory.wordAt cpu.counter.toNat

/-- Whether an obstacle stands in the way of the next step. -/
def Faces (cpu : Cpu) (obstacle : Obstacle) : Prop :=
  let counter := cpu.counter.toNat
  let index := cpu.index.toNat
  let calls := cpu.stack.frames.length
  let family := cpu.opcode / 0x1000
  let x := cpu.opcode / 0x100 % 0x10
  let digit := cpu.opcode % 0x10
  let byte := cpu.opcode % 0x100
  match obstacle with
  | .behindEnd => 0xFFE < counter
  | .unlisted => counter ≤ 0xFFE ∧ Opcode.Unlisted cpu.opcode
  | .fullStack => counter ≤ 0xFFE ∧ family = 0x2 ∧ calls = 16
  | .emptyStack => counter ≤ 0xFFE ∧ family = 0x0 ∧ digit = 0xE ∧ calls = 0
  | .spriteBehindEnd => counter ≤ 0xFFE ∧ family = 0xD ∧ 0x1000 < index + digit
  | .digitsBehindEnd => counter ≤ 0xFFE ∧ family = 0xF ∧ byte = 0x33 ∧ 0x1000 < index + 3
  | .registersBehindEnd =>
    counter ≤ 0xFFE ∧ family = 0xF ∧ (byte = 0x55 ∨ byte = 0x65) ∧ 0x1000 < index + x + 1
  | .storeOverGlyphs =>
    counter ≤ 0xFFE ∧ family = 0xF ∧ (byte = 0x33 ∨ byte = 0x55) ∧ index < 0x50

/-- The fault with which a step is refused at an obstacle. -/
def faultAt (cpu : Cpu) : Obstacle → Fault
  | .behindEnd => .memoryOutOfBounds (max cpu.counter.toNat 0x1000)
  | .unlisted => .unknownOpcode (UInt16.ofNat cpu.opcode) cpu.counter
  | .fullStack => .stackOverflow cpu.counter
  | .emptyStack => .stackUnderflow cpu.counter
  | .spriteBehindEnd | .digitsBehindEnd | .registersBehindEnd =>
    .memoryOutOfBounds (max cpu.index.toNat 0x1000)
  | .storeOverGlyphs => .fontOverwrite cpu.index

variable {cpu : Cpu} {word : UInt16} {instruction : Instruction} {fault : Fault}

theorem fetch_eq_ok_iff :
    cpu.fetch = .ok word ↔ cpu.counter.toNat ≤ 0xFFE ∧ word.toNat = cpu.opcode := by
  have hroom : cpu.counter.toNat + 2 ≤ Memory.size ↔ cpu.counter.toNat ≤ 0xFFE := by
    simp only [Memory.size]
    omega
  rw [fetch, Memory.word_eq_ok_iff, hroom, opcode]

theorem fetch_eq_error_iff :
    cpu.fetch = .error fault ↔
      0xFFE < cpu.counter.toNat ∧ fault = .memoryOutOfBounds (max cpu.counter.toNat 0x1000) := by
  have hroom : ¬cpu.counter.toNat + 2 ≤ Memory.size ↔ 0xFFE < cpu.counter.toNat := by
    simp only [Memory.size]
    omega
  rw [fetch, Memory.word_eq_error_iff, Memory.readFault?, ← hroom]
  split <;> simp_all [Memory.rangeFault, Memory.size, eq_comm]

/-- The opcode is a word. -/
theorem exists_fetch (h : cpu.counter.toNat ≤ 0xFFE) :
    ∃ word, cpu.fetch = .ok word ∧ word.toNat = cpu.opcode := by
  cases hfetch : cpu.fetch with
  | error fault =>
    have hbehind := (fetch_eq_error_iff.mp hfetch).1
    omega
  | ok word => exact ⟨word, rfl, (fetch_eq_ok_iff.mp hfetch).2⟩

/-- The instruction to come is the one of the opcode's row. -/
theorem peek_eq_some_iff_standsFor :
    cpu.peek = .ok (some instruction) ↔
      cpu.counter.toNat ≤ 0xFFE ∧ Opcode.StandsFor cpu.opcode instruction := by
  rw [peek_eq_some_iff]
  constructor
  · rintro ⟨word, hfetch, hdecode⟩
    obtain ⟨hcounter, hword⟩ := fetch_eq_ok_iff.mp hfetch
    exact ⟨hcounter, hword ▸ Instruction.standsFor_of_decode? hdecode⟩
  · rintro ⟨hcounter, hrow⟩
    obtain ⟨word, hfetch, hword⟩ := exists_fetch hcounter
    exact ⟨word, hfetch, Instruction.decode?_of_standsFor (hword ▸ hrow)⟩

/-- With a listed opcode a step is refused just when the instruction of its row is. -/
theorem fault?_of_standsFor (instruction : Instruction) (h : cpu.counter.toNat ≤ 0xFFE)
    (hrow : Opcode.StandsFor cpu.opcode instruction) :
    cpu.fault? = cpu.refusal? instruction := by
  obtain ⟨word, hfetch, hword⟩ := exists_fetch h
  have hdecode := Instruction.decode?_of_standsFor (hword ▸ hrow)
  simp only [fault?, hfetch, hdecode]

private theorem exists_toNat_eq (n : Nat) (h : n < 0x100) : ∃ value : UInt8, n = value.toNat :=
  ⟨UInt8.ofNat n, (UInt8.toNat_ofNat_of_lt' h).symm⟩

/-- At an obstacle the step is refused with the fault of this obstacle. -/
theorem Bounded.fault?_of_faces (h : cpu.Bounded) {obstacle : Obstacle}
    (hfaces : cpu.Faces obstacle) : cpu.fault? = some (cpu.faultAt obstacle) := by
  obtain ⟨x, hx⟩ := exists_toNat_eq (cpu.opcode / 0x100 % 0x10) (by omega)
  cases obstacle with
  | behindEnd =>
    have hfetch := fetch_eq_error_iff.mpr ⟨hfaces, rfl⟩
    simp only [fault?, hfetch, faultAt]
  | unlisted =>
    obtain ⟨hcounter, hunlisted⟩ := hfaces
    obtain ⟨word, hfetch, hword⟩ := exists_fetch hcounter
    have hdecode := Instruction.decode?_eq_none_iff.mpr (hword ▸ hunlisted)
    simp only [fault?, hfetch, hdecode, faultAt, ← hword, UInt16.ofNat_toNat]
  | fullStack =>
    obtain ⟨hcounter, hfamily, hcalls⟩ := hfaces
    rw [h.length_frames] at hcalls
    have htarget : cpu.opcode % 0x1000 = (UInt16.ofNat (cpu.opcode % 0x1000)).toNat :=
      (UInt16.toNat_ofNat_of_lt' (Nat.lt_trans (Nat.mod_lt _ (by decide)) (by decide))).symm
    have hfault := fault?_of_standsFor (.call _) hcounter ⟨hfamily, htarget⟩
    rw [hfault, h.refusal?_call, CallStack.capacity, if_pos hcalls, faultAt]
  | emptyStack =>
    obtain ⟨hcounter, hfamily, hdigit, hcalls⟩ := hfaces
    rw [h.length_frames] at hcalls
    have hfault := fault?_of_standsFor .ret hcounter ⟨hfamily, hdigit⟩
    rw [hfault, h.refusal?_ret, if_pos hcalls, faultAt]
  | spriteBehindEnd =>
    obtain ⟨hcounter, hfamily, hindex⟩ := hfaces
    obtain ⟨y, hy⟩ := exists_toNat_eq (cpu.opcode / 0x10 % 0x10) (by omega)
    obtain ⟨height, hheight⟩ := exists_toNat_eq (cpu.opcode % 0x10) (by omega)
    have hfault := fault?_of_standsFor (.draw x y height) hcounter
      ⟨hfamily, hx, hy, hheight⟩
    rw [hheight] at hindex
    exact hfault.trans (Memory.readFault?_eq_some_iff.mpr ⟨hindex, rfl⟩)
  | digitsBehindEnd =>
    obtain ⟨hcounter, hfamily, hbyte, hindex⟩ := hfaces
    have hfault := fault?_of_standsFor (.storeDecimal x) hcounter
      ⟨hfamily, hbyte, hx⟩
    have hhigh : Font.stop ≤ cpu.index.toNat := by
      simp only [Font.stop, Font.start, Font.glyphSize]
      omega
    rw [hfault]
    exact (Memory.writeFault?_eq_some_iff (Nat.succ_pos _)).mpr (.inr ⟨hhigh, hindex, rfl⟩)
  | registersBehindEnd =>
    obtain ⟨hcounter, hfamily, hbyte | hbyte, hindex⟩ := hfaces
    · have hfault := fault?_of_standsFor (.store x) hcounter ⟨hfamily, hbyte, hx⟩
      have hhigh : Font.stop ≤ cpu.index.toNat := by
        simp only [Font.stop, Font.start, Font.glyphSize]
        omega
      rw [hx] at hindex
      exact hfault.trans
        ((Memory.writeFault?_eq_some_iff (Nat.succ_pos _)).mpr (.inr ⟨hhigh, hindex, rfl⟩))
    · have hfault := fault?_of_standsFor (.load x) hcounter ⟨hfamily, hbyte, hx⟩
      rw [hx] at hindex
      exact hfault.trans (Memory.readFault?_eq_some_iff.mpr ⟨hindex, rfl⟩)
  | storeOverGlyphs =>
    obtain ⟨hcounter, hfamily, hbyte | hbyte, hindex⟩ := hfaces
    · have hfault := fault?_of_standsFor (.storeDecimal x) hcounter
        ⟨hfamily, hbyte, hx⟩
      rw [hfault]
      exact (Memory.writeFault?_eq_some_iff (Nat.succ_pos _)).mpr (.inl ⟨hindex, rfl⟩)
    · have hfault := fault?_of_standsFor (.store x) hcounter ⟨hfamily, hbyte, hx⟩
      exact hfault.trans
        ((Memory.writeFault?_eq_some_iff (Nat.succ_pos _)).mpr (.inl ⟨hindex, rfl⟩))

/-- A refused instruction meets an obstacle. -/
theorem Bounded.faces_of_refusal? (h : cpu.Bounded) (hcounter : cpu.counter.toNat ≤ 0xFFE)
    (hrow : Opcode.StandsFor cpu.opcode instruction)
    (hrefusal : cpu.refusal? instruction = some fault) : ∃ obstacle, cpu.Faces obstacle := by
  cases instruction with
  | ret =>
    rw [h.refusal?_ret, Option.ite_none_right_eq_some, ← h.length_frames] at hrefusal
    exact ⟨.emptyStack, hcounter, hrow.1, hrow.2, hrefusal.1⟩
  | call target =>
    rw [h.refusal?_call, Option.ite_none_right_eq_some, ← h.length_frames] at hrefusal
    exact ⟨.fullStack, hcounter, hrow.1, hrefusal.1⟩
  | draw x y height =>
    obtain ⟨hfamily, -, -, hheight⟩ := hrow
    obtain ⟨hindex, -⟩ := Memory.readFault?_eq_some_iff.mp hrefusal
    simp only [Instruction.span, ← hheight] at hindex
    exact ⟨.spriteBehindEnd, hcounter, hfamily, hindex⟩
  | storeDecimal x =>
    obtain ⟨hfamily, hbyte, -⟩ := hrow
    obtain ⟨hlow, -⟩ | ⟨-, hindex, -⟩ :=
      (Memory.writeFault?_eq_some_iff (Nat.succ_pos _)).mp hrefusal
    · exact ⟨.storeOverGlyphs, hcounter, hfamily, .inl hbyte, hlow⟩
    · exact ⟨.digitsBehindEnd, hcounter, hfamily, hbyte, hindex⟩
  | store x =>
    obtain ⟨hfamily, hbyte, hx⟩ := hrow
    obtain ⟨hlow, -⟩ | ⟨-, hindex, -⟩ :=
      (Memory.writeFault?_eq_some_iff (Nat.succ_pos _)).mp hrefusal
    · exact ⟨.storeOverGlyphs, hcounter, hfamily, .inr hbyte, hlow⟩
    · simp only [← hx] at hindex
      exact ⟨.registersBehindEnd, hcounter, hfamily, .inl hbyte, hindex⟩
  | load x =>
    obtain ⟨hfamily, hbyte, hx⟩ := hrow
    obtain ⟨hindex, -⟩ := Memory.readFault?_eq_some_iff.mp hrefusal
    simp only [Instruction.span, ← hx] at hindex
    exact ⟨.registersBehindEnd, hcounter, hfamily, .inr hbyte, hindex⟩
  | _ => cases hrefusal

/-- The processor refuses the step at an obstacle, and only there. -/
theorem Bounded.fault?_eq_some_iff (h : cpu.Bounded) :
    cpu.fault? = some fault ↔ ∃ obstacle, cpu.Faces obstacle ∧ cpu.faultAt obstacle = fault := by
  constructor
  · intro hfault
    have hfaces : ∃ obstacle, cpu.Faces obstacle := by
      cases hfetch : cpu.fetch with
      | error cause => exact ⟨.behindEnd, (fetch_eq_error_iff.mp hfetch).1⟩
      | ok word =>
        obtain ⟨hcounter, hword⟩ := fetch_eq_ok_iff.mp hfetch
        cases hdecode : Instruction.decode? word with
        | none =>
          have hunlisted := Instruction.decode?_eq_none_iff.mp hdecode
          exact ⟨.unlisted, hcounter, hword ▸ hunlisted⟩
        | some instruction =>
          have hrow := Instruction.decode?_eq_some_iff.mp hdecode
          simp only [fault?, hfetch, hdecode] at hfault
          exact h.faces_of_refusal? hcounter (hword ▸ hrow) hfault
    obtain ⟨obstacle, hfaces⟩ := hfaces
    have hsame := h.fault?_of_faces hfaces
    rw [hfault] at hsame
    exact ⟨obstacle, hfaces, (Option.some.inj hsame).symm⟩
  · rintro ⟨obstacle, hfaces, rfl⟩
    exact h.fault?_of_faces hfaces

/-- No two obstacles stand in the way at once. -/
theorem faces_unique {first second : Obstacle} (hfirst : cpu.Faces first)
    (hsecond : cpu.Faces second) : first = second := by
  cases first <;> cases second <;>
    simp only [Faces, Opcode.Unlisted, List.mem_cons, List.not_mem_nil, or_false, not_or,
      reduceCtorEq] at hfirst hsecond ⊢ <;>
    omega

/-- In every state that a run leads to, a step is refused just at an obstacle, with the
fault of this obstacle. There is never more than one, and without one the step is made,
whatever it is lent. -/
theorem refused_iff_obstacle (rom : Rom) (random : Random) (loans : List Loan)
    (screen : Screen) (keypad : Keypad) :
    let cpu := (ofSource rom random).run loans
    let result := (cpu.step screen keypad).result
    (∀ fault, result = .error fault ↔
      ∃ obstacle, cpu.Faces obstacle ∧ cpu.faultAt obstacle = fault) ∧
    (∀ first second, cpu.Faces first → cpu.Faces second → first = second) ∧
    ((∀ obstacle, ¬cpu.Faces obstacle) → ∃ cycle, result = .ok cycle) := by
  intro cpu result
  have hbounded : cpu.Bounded := (bounded_ofSource rom random).run loans
  have hrefused : ∀ fault, result = .error fault ↔
      ∃ obstacle, cpu.Faces obstacle ∧ cpu.faultAt obstacle = fault := by
    intro fault
    rw [← hbounded.fault?_eq_some_iff]
    exact step_result_eq_error_iff screen keypad
  refine ⟨hrefused, fun _ _ => faces_unique, ?_⟩
  intro hclear
  cases hresult : result with
  | ok cycle => exact ⟨cycle, rfl⟩
  | error fault =>
    obtain ⟨obstacle, hfaces, -⟩ := (hrefused fault).mp hresult
    exact absurd hfaces (hclear obstacle)

end Cpu

end Chip8
