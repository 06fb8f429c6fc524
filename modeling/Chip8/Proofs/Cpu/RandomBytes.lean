import Chip8.Proofs.Cpu.Picture
import Mathlib.Data.List.Forall2

/-!
# Random bytes over a run

Only one instruction takes random bytes, and each time it is executed it takes just one.
So the source of a run stands at the number of times that this instruction was executed,
and the byte that it takes next is the one at this place of the stream, whatever happened
in between. A processor meets its source in no other way: two processors whose streams
begin with the same bytes cannot be told apart until these bytes are used up. All of this
holds for any stream of words, and so for the stream of any seed.
-/

namespace Chip8

/-- The source behind a number of words. -/
def Random.skip (source : Random) (n : Nat) : Random :=
  { source with position := source.position + n }

theorem Random.skip_skip (source : Random) (m n : Nat) :
    (source.skip m).skip n = source.skip (m + n) := by
  simp only [skip, Nat.add_assoc]

theorem Random.skip_ofWords (words : Nat → UInt32) (k : Nat) :
    (ofWords words).skip k = ⟨words, k⟩ := by
  rw [skip, ofWords, Nat.zero_add]

/-- The byte at a place of a stream is what the word there leaves modulo 256. -/
theorem Random.toNat_byte (words : Nat → UInt32) (k : Nat) :
    (byte ⟨words, k⟩).toNat = (words k).toNat % 256 :=
  UInt32.toNat_toUInt8 (words k)

/-- Whether an executed instruction takes a random byte. -/
def Executed.takesByte (entry : Executed) : Bool :=
  match entry.instruction with
  | .random _ _ => true
  | _ => false

namespace Cpu

/-- The steps of a run that take a random byte, the earliest first. -/
def takings (cpu : Cpu) (loans : List Loan) : List Advance :=
  (cpu.advances loans).filter fun step => step.takesByte

variable {cpu : Cpu} {loan : Loan} {instruction : Instruction}

/-! ## The place in the stream -/

/-- An executed instruction takes a byte or leaves the source alone. -/
theorem Executes.random_eq_skip (h : cpu.Executes loan instruction) :
    (cpu.after loan).random =
      cpu.random.skip (if Executed.takesByte ⟨cpu, instruction⟩ then 1 else 0) := by
  rw [h.random]
  cases instruction <;> rfl

theorem takings_cons (cpu : Cpu) (loan : Loan) (loans : List Loan) :
    cpu.takings (loan :: loans) = cpu.takings [loan] ++ (cpu.after loan).takings loans := by
  simp only [takings, advances, List.filter_append, List.append_nil]

/-- The one step of a short run takes a byte if it executes the instruction that does. -/
theorem Executes.takings_singleton (h : cpu.Executes loan instruction) :
    cpu.takings [loan] =
      if Executed.takesByte ⟨cpu, instruction⟩ then
        [⟨⟨cpu, instruction⟩, (cpu.timersAfter instruction).expiring, cpu.after loan⟩]
      else [] := by
  simp only [takings, advances, h.advance?, Option.toList_some, List.append_nil,
    List.filter_cons, List.filter_nil]

/-- A step moves the source on by what it takes. -/
theorem random_after (cpu : Cpu) (loan : Loan) :
    (cpu.after loan).random = cpu.random.skip (cpu.takings [loan]).length := by
  obtain ⟨instruction, hexec, -⟩ | ⟨heq, hnone⟩ := cpu.advance?_or_after_eq loan
  · rw [hexec.random_eq_skip, hexec.takings_singleton]
    split <;> rfl
  · simp only [heq, takings, advances, hnone]
    rfl

/-- So does a run. -/
theorem random_run (cpu : Cpu) (loans : List Loan) :
    (cpu.run loans).random = cpu.random.skip (cpu.takings loans).length := by
  induction loans generalizing cpu with
  | nil => rfl
  | cons loan loans ih =>
    rw [run_cons, ih, random_after, Random.skip_skip, takings_cons cpu loan loans,
      List.length_append]

/-- Whoever takes a byte behind `k` others finds the source behind `k` words. -/
theorem random_before_of_getElem? {loans : List Loan} {k : Nat} {step : Advance}
    (h : (cpu.takings loans)[k]? = some step) : step.before.random = cpu.random.skip k := by
  induction loans generalizing cpu k with
  | nil => cases h
  | cons loan loans ih =>
    rw [takings_cons] at h
    by_cases hk : k < (cpu.takings [loan]).length
    · rw [List.getElem?_append_left hk] at h
      obtain ⟨instruction, hexec, -⟩ | ⟨-, hnone⟩ := cpu.advance?_or_after_eq loan
      · rw [hexec.takings_singleton] at h hk
        by_cases htakes : Executed.takesByte ⟨cpu, instruction⟩ = true
        · rw [if_pos htakes] at h hk
          obtain rfl : k = 0 := Nat.lt_one_iff.mp hk
          cases h
          rfl
        · rw [if_neg htakes] at h
          cases h
      · simp only [takings, advances, hnone] at h
        cases h
    · have hle := Nat.le_of_not_lt hk
      rw [List.getElem?_append_right hle] at h
      rw [ih h, random_after, Random.skip_skip, Nat.add_sub_cancel' hle]

/-- The byte that is taken, cut down to the bits of the mask, goes into the register. -/
theorem get_of_random {loans : List Loan} {k : Nat} {step : Advance} {x mask : UInt8}
    (h : (cpu.takings loans)[k]? = some step) (hrandom : step.instruction = .random x mask) :
    step.after.registers.get x = (cpu.random.skip k).byte &&& mask := by
  have hmem := (List.mem_filter.mp (List.mem_of_getElem? h)).1
  obtain ⟨loan, hexec, -, hafter⟩ := executes_of_mem_advances hmem
  rw [hafter, hexec.registers, hrandom, execute, setRegister, Registers.get_set, if_pos rfl,
    random_before_of_getElem? h]

/-! ## Two sources -/

/-- Two processors that differ at most in their sources of random numbers. -/
structure Alike (left right : Cpu) : Prop where
  /-- They stand at the same address. -/
  counter : left.counter = right.counter
  /-- The indices are the same. -/
  index : left.index = right.index
  /-- The registers hold the same. -/
  registers : left.registers = right.registers
  /-- The timers show the same. -/
  timers : left.timers = right.timers
  /-- The same calls are pending. -/
  stack : left.stack = right.stack
  /-- The memories hold the same. -/
  memory : left.memory = right.memory

end Cpu

/-- Two outcomes that differ at most in the sources of random numbers. -/
structure Outcome.Alike {α : Type} (left right : Outcome α) : Prop where
  /-- The results are the same. -/
  result : left.result = right.result
  /-- The processors are alike. -/
  cpu : left.cpu.Alike right.cpu
  /-- The screens are the same. -/
  screen : left.screen = right.screen

namespace Cpu

variable {left right : Cpu} {loan : Loan} {instruction : Instruction}

theorem Alike.eq_with (h : left.Alike right) : right = { left with random := right.random } := by
  obtain ⟨hcounter, hindex, hregisters, htimers, hstack, hmemory⟩ := h
  cases right
  simp only [hcounter, hindex, hregisters, htimers, hstack, hmemory]

/-- An instruction does not look at the source, unless it takes a byte from it. -/
theorem Alike.execute (h : left.Alike right) (screen : Screen) (keypad : Keypad)
    (hbyte : ∀ x mask, instruction = .random x mask → left.random.byte = right.random.byte) :
    (left.execute screen keypad instruction).Alike (right.execute screen keypad instruction) := by
  rw [h.eq_with]
  generalize right.random = source at hbyte
  cases instruction with
  | random x mask =>
    rw [Cpu.execute, Cpu.execute, hbyte x mask rfl]
    exact ⟨rfl, ⟨rfl, rfl, rfl, rfl, rfl, rfl⟩, rfl⟩
  | ret | call | draw | waitKey | storeDecimal | store | load =>
    simp only [Cpu.execute]
    split <;> exact ⟨rfl, ⟨rfl, rfl, rfl, rfl, rfl, rfl⟩, rfl⟩
  | _ => exact ⟨rfl, ⟨rfl, rfl, rfl, rfl, rfl, rfl⟩, rfl⟩

/-- Nor does moving the program counter on. -/
theorem Alike.complete (h : left.Alike right) (flow : Flow) :
    (left.complete flow).1 = (right.complete flow).1 ∧
      (left.complete flow).2.Alike (right.complete flow).2 := by
  rw [h.eq_with]
  simp only [Cpu.complete]
  split <;> exact ⟨rfl, rfl, rfl, rfl, rfl, rfl, rfl⟩

theorem Alike.fault? (h : left.Alike right) : left.fault? = right.fault? := by
  rw [h.eq_with]
  rfl

theorem Alike.peek (h : left.Alike right) : left.peek = right.peek := by
  rw [h.eq_with]
  rfl

/-- A step keeps two processors alike if they find the same byte, should they take one. -/
theorem Alike.outcome (h : left.Alike right) (loan : Loan)
    (hbyte : left.takings [loan] ≠ [] → left.random.byte = right.random.byte) :
    (left.outcome loan).Alike (right.outcome loan) := by
  cases hfault : left.fault? with
  | some fault =>
    rw [Cpu.outcome, Cpu.outcome, step_of_fault? _ _ hfault, step_of_fault? _ _ (h.fault? ▸ hfault)]
    exact ⟨rfl, h, rfl⟩
  | none =>
    obtain ⟨instruction, hpeek, haccepted⟩ := exists_accepted hfault
    have hpeek' : right.peek = .ok (some instruction) := h.peek ▸ hpeek
    have haccepted' : right.refusal? instruction = none := by
      rw [h.eq_with]
      exact haccepted
    have hflow : left.flow loan.keypad instruction = right.flow loan.keypad instruction := by
      rw [h.eq_with]
      rfl
    have hbytes : ∀ x mask, instruction = .random x mask →
        left.random.byte = right.random.byte := by
      rintro x mask rfl
      have hmoves : left.flow loan.keypad (.random x mask) ≠ .wait := by simp [flow]
      have hexec : left.Executes loan (.random x mask) :=
        (executes_of_flow hpeek haccepted hmoves).1
      apply hbyte
      rw [hexec.takings_singleton]
      exact List.cons_ne_nil _ _
    have hexecute := h.execute loan.screen loan.keypad hbytes
    obtain ⟨hcycle, hcpu⟩ := hexecute.cpu.complete (left.flow loan.keypad instruction)
    rw [Cpu.outcome, Cpu.outcome, step_of_accepted _ _ hpeek haccepted,
      step_of_accepted _ _ hpeek' haccepted', ← hflow]
    exact ⟨congrArg Except.ok hcycle, hcpu, hexecute.screen⟩

/-- If a step does the same on both, it takes as many bytes from both. -/
theorem Alike.length_takings (h : left.Alike right)
    (houtcome : (left.outcome loan).Alike (right.outcome loan)) :
    (left.takings [loan]).length = (right.takings [loan]).length := by
  simp only [takings, advances, advance?, houtcome.result, h.peek]
  split
  · next instruction _ _ => cases instruction <;> rfl
  · rfl

/-- A run cannot tell two sources apart that give the same bytes as far as it takes any. -/
theorem Alike.outcomes (h : left.Alike right) {loans : List Loan}
    (hbytes : ∀ k, k < (left.takings loans).length →
      (left.random.skip k).byte = (right.random.skip k).byte) :
    List.Forall₂ Outcome.Alike (left.outcomes loans) (right.outcomes loans) := by
  induction loans generalizing left right with
  | nil => exact .nil
  | cons loan loans ih =>
    have hlength : (left.takings (loan :: loans)).length =
        (left.takings [loan]).length + ((left.after loan).takings loans).length := by
      rw [takings_cons, List.length_append]
    have houtcome := h.outcome loan fun htaken =>
      hbytes 0 (by have := List.length_pos_iff.mpr htaken; omega)
    refine .cons houtcome (ih houtcome.cpu fun k hk => ?_)
    -- Behind the step both sources have moved on by the same number of words.
    have hplace := hbytes ((left.takings [loan]).length + k) (by omega)
    rw [random_after, random_after, Random.skip_skip, Random.skip_skip,
      ← h.length_takings houtcome]
    exact hplace

/-- Two programs at their start differ in their sources alone. -/
theorem alike_ofSource (rom : Rom) (random other : Random) :
    (ofSource rom random).Alike (ofSource rom other) :=
  ⟨rfl, rfl, rfl, rfl, rfl, rfl⟩

/-- In a run from a seed the `k`-th executed instruction that takes a random byte gets the
low byte of the `k`-th word of the stream, cut down to the bits of its mask, and behind the
run the source stands at the number of these instructions: nothing else moves it. So
whenever two streams, whatever they come from, have the same low bytes in their first `m`
words, a program does the same with both, in every step, as long as it takes no more than
`m` bytes; if it takes none, its seed is of no importance. -/
theorem random_bytes_of_run (rom : Rom) (seed : UInt64) (loans : List Loan) :
    let start := ofSeed rom seed
    let word := Random.wordAt (Random.keyOfSeed seed)
    let takings := start.takings loans
    (∀ k step x mask, takings[k]? = some step → step.instruction = .random x mask →
      (step.after.registers.get x).toNat = ((word k).toNat % 256) &&& mask.toNat) ∧
    (start.run loans).random = ⟨word, takings.length⟩ ∧
    (∀ (left right : Nat → UInt32) (m : Nat),
      (∀ k, k < m → (left k).toNat % 256 = (right k).toNat % 256) →
      ((ofSource rom (Random.ofWords left)).takings loans).length ≤ m →
      List.Forall₂ Outcome.Alike ((ofSource rom (Random.ofWords left)).outcomes loans)
        ((ofSource rom (Random.ofWords right)).outcomes loans)) ∧
    (takings = [] → ∀ other,
      List.Forall₂ Outcome.Alike (start.outcomes loans) ((ofSeed rom other).outcomes loans)) := by
  intro start word takings
  have hsource : start.random = Random.ofWords word := rfl
  refine ⟨?_, ?_, ?_, ?_⟩
  · intro k step x mask hstep hrandom
    rw [get_of_random hstep hrandom, UInt8.toNat_and, hsource, Random.skip_ofWords,
      Random.toNat_byte]
  · rw [random_run, hsource, Random.skip_ofWords]
  · intro left right m hagree hcount
    apply (alike_ofSource rom (Random.ofWords left) (Random.ofWords right)).outcomes
    intro k hk
    change ((Random.ofWords left).skip k).byte = ((Random.ofWords right).skip k).byte
    rw [Random.skip_ofWords, Random.skip_ofWords, ← UInt8.toNat_inj, Random.toNat_byte,
      Random.toNat_byte]
    exact hagree k (Nat.lt_of_lt_of_le hk hcount)
  · intro hnone other
    apply (alike_ofSource rom (Random.ofSeed seed) (Random.ofSeed other)).outcomes
    intro k hk
    rw [show (ofSource rom (Random.ofSeed seed)).takings loans = [] from hnone] at hk
    exact absurd hk (Nat.not_lt_zero k)

/-- Two bytes are taken in a row: 108 and, cut down to its low half, 103. -/
theorem two_bytes_taken :
    let rom : Rom := ⟨[0xC0, 0xFF, 0xC1, 0x0F], by decide⟩
    let loan : Loan := ⟨Screen.blank, Keypad.empty⟩
    let start := ofSeed rom 0
    let takings := start.takings [loan, loan]
    ∃ first second, takings[0]? = some first ∧ takings[1]? = some second ∧
      first.instruction = .random 0 0xFF ∧ second.instruction = .random 1 0x0F ∧
      (first.after.registers.get 0).toNat = 108 ∧ (second.after.registers.get 1).toNat = 7 ∧
      (start.run [loan, loan]).random.position = 2 := by
  intro rom loan start takings
  obtain ⟨hfirst, hsecond, hlength⟩ : takings[0]?.map (·.instruction) = some (.random 0 0xFF) ∧
      takings[1]?.map (·.instruction) = some (.random 1 0x0F) ∧ takings.length = 2 := by
    decide +kernel
  obtain ⟨first, hfirst, hrandom⟩ := Option.map_eq_some_iff.mp hfirst
  obtain ⟨second, hsecond, hrandom'⟩ := Option.map_eq_some_iff.mp hsecond
  obtain ⟨hbytes, hsource, -⟩ := random_bytes_of_run rom 0 [loan, loan]
  have hbyte := hbytes 0 first 0 0xFF hfirst hrandom
  have hbyte' := hbytes 1 second 1 0x0F hsecond hrandom'
  refine ⟨first, second, hfirst, hsecond, hrandom, hrandom', hbyte.trans ?_, hbyte'.trans ?_,
    (congrArg Random.position hsource).trans hlength⟩
  · decide +kernel
  · decide +kernel

end Cpu

end Chip8
