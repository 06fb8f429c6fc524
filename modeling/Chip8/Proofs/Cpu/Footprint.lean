import Chip8.Proofs.Cpu.Arithmetic
import Chip8.Proofs.Cpu.Timing
import Chip8.Proofs.Memory.Stores

/-!
# What a step may write to

The opcode at the program counter tells which parts of the state a step may write to: a
register or two, the index, one slot of the call stack, a few bytes of memory, the source of
random numbers, the screen. Whatever it does not name is left as it was. Only the program
counter and the timers move in every step that makes progress, and the timers just by one.
-/

namespace Chip8

/-- A part of the state. Program counter and timers are left out, as every step moves them. -/
inductive Part where
  /-- The data register with a given number. -/
  | register (number : Fin Registers.count)
  /-- The index. -/
  | index
  /-- The call stack as a whole, dead slots included. -/
  | stack
  /-- One slot of the call stack. -/
  | slot (number : Fin CallStack.capacity)
  /-- The byte at an address. -/
  | byte (address : Fin Memory.size)
  /-- The source of random numbers. -/
  | source
  /-- The pixels, and whether they were shown. -/
  | screen
  deriving DecidableEq, Repr

/-- A part is the same after an attempt as it was before. -/
def Part.KeptBy {α : Type} (cpu : Cpu) (screen : Screen) (outcome : Outcome α) : Part → Prop
  | .register k => outcome.cpu.registers.value k = cpu.registers.value k
  | .index => outcome.cpu.index = cpu.index
  | .stack => outcome.cpu.stack = cpu.stack
  | .slot k => outcome.cpu.stack.slots[k] = cpu.stack.slots[k]
  | .byte a => outcome.cpu.memory.bytes[a] = cpu.memory.bytes[a]
  | .source => outcome.cpu.random = cpu.random
  | .screen => outcome.screen = screen

/-- Whether an opcode puts a register into a timer. -/
def Opcode.Sets (opcode : Nat) : Timer → Prop
  | .delay => opcode / 0x1000 = 0xF ∧ opcode % 0x100 = 0x15
  | .sound => opcode / 0x1000 = 0xF ∧ opcode % 0x100 = 0x18

instance (opcode : Nat) (timer : Timer) : Decidable (Opcode.Sets opcode timer) :=
  match timer with
  | .delay | .sound => inferInstanceAs (Decidable (_ ∧ _))

namespace Cpu

/-- The parts that the opcode at the program counter may write to. -/
def Writes (cpu : Cpu) (part : Part) : Prop :=
  let index := cpu.index.toNat
  let family := cpu.opcode / 0x1000
  let x := cpu.opcode / 0x100 % 0x10
  let digit := cpu.opcode % 0x10
  let byte := cpu.opcode % 0x100
  match part with
  | .register k =>
    k.val = x ∧ (family = 0x6 ∨ family = 0x7 ∨ family = 0x8 ∨ family = 0xC ∨
      family = 0xF ∧ (byte = 0x07 ∨ byte = 0x0A)) ∨
    k.val ≤ x ∧ family = 0xF ∧ byte = 0x65 ∨
    k.val = 0xF ∧ (family = 0x8 ∧ (0x4 ≤ digit ∧ digit ≤ 0x7 ∨ digit = 0xE) ∨ family = 0xD ∨
      family = 0xF ∧ byte = 0x1E)
  | .index =>
    family = 0xA ∨ family = 0xF ∧ (byte = 0x1E ∨ byte = 0x29 ∨ byte = 0x55 ∨ byte = 0x65)
  | .stack => family = 0x2 ∨ family = 0x0 ∧ digit = 0xE
  | .slot k => family = 0x2 ∧ k.val = cpu.stack.depth
  | .byte a =>
    family = 0xF ∧ byte = 0x33 ∧ index ≤ a.val ∧ a.val < index + 3 ∨
    family = 0xF ∧ byte = 0x55 ∧ index ≤ a.val ∧ a.val ≤ index + x
  | .source => family = 0xC
  | .screen => family = 0x0 ∧ digit = 0x0 ∨ family = 0xD

end Cpu

/-! ## Registers that are not written to -/

namespace Registers

variable {registers : Registers} {x value : UInt8} {k : Nat}

theorem value_set_of_ne (hx : x.toNat < 16) (hk : k < 16) (h : x.toNat ≠ k) :
    (registers.set x value).value k = registers.value k := by
  rw [value_set hx hk, if_neg h]

theorem value_setFlag_of_ne {on : Bool} (hk : k < 16) (h : k ≠ 0xF) :
    (registers.setFlag on).value k = registers.value k := by
  rw [value_setFlag hk, if_neg h]

/-- A register that is loaded holds the byte with its number. -/
theorem value_load (bytes : List UInt8) (hk : k < 16) :
    (registers.load bytes).value k = (bytes[k]?.map UInt8.toNat).getD (registers.value k) := by
  have hindex : index (UInt8.ofNat k) = ⟨k, hk⟩ := by
    apply Fin.ext
    simp only [index, count, UInt8.toNat_ofNat']
    omega
  simp only [Registers.value, get, load, hindex, Fin.getElem_fin, Vector.getElem_ofFn]
  cases bytes[k]? <;> rfl

end Registers

namespace Cpu

variable {cpu : Cpu} {instruction : Instruction} (screen : Screen) (keypad : Keypad)

/-! ## What an instruction leaves alone -/

/-- A register that the opcode does not name holds what it held, whatever the aliases. -/
theorem value_execute (haccepted : cpu.refusal? instruction = none)
    (hrow : Opcode.StandsFor cpu.opcode instruction) {k : Fin Registers.count}
    (h : ¬cpu.Writes (.register k)) :
    (cpu.execute screen keypad instruction).cpu.registers.value k = cpu.registers.value k := by
  have hk : k.val < 16 := k.isLt
  cases instruction with
  | setByte x byte | addByte x byte | random x mask =>
    obtain ⟨hfamily, hx, -⟩ := hrow
    have hne : k.val ≠ x.toNat := by simpa [Writes, hfamily, hx] using h
    exact Registers.value_set_of_ne (by omega) hk hne.symm
  | copy x y | or x y | and x y | xor x y =>
    obtain ⟨hfamily, hdigit, hx, -⟩ := hrow
    have hne : k.val ≠ x.toNat := by simpa [Writes, hfamily, hdigit, hx] using h
    exact Registers.value_set_of_ne (by omega) hk hne.symm
  | add x y | sub x y | subFrom x y =>
    obtain ⟨hfamily, hdigit, hx, -⟩ := hrow
    have hne : k.val ≠ x.toNat ∧ k.val ≠ 0xF := by simpa [Writes, hfamily, hdigit, hx] using h
    exact (Registers.value_setFlag_of_ne hk hne.2).trans
      (Registers.value_set_of_ne (by omega) hk hne.1.symm)
  | shiftRight x | shiftLeft x =>
    obtain ⟨hfamily, hdigit, hx⟩ := hrow
    have hne : k.val ≠ x.toNat ∧ k.val ≠ 0xF := by simpa [Writes, hfamily, hdigit, hx] using h
    exact (Registers.value_setFlag_of_ne hk hne.2).trans
      (Registers.value_set_of_ne (by omega) hk hne.1.symm)
  | readDelay x =>
    obtain ⟨hfamily, hbyte, hx⟩ := hrow
    have hne : k.val ≠ x.toNat := by simpa [Writes, hfamily, hbyte, hx] using h
    exact Registers.value_set_of_ne (by omega) hk hne.symm
  | waitKey x =>
    obtain ⟨hfamily, hbyte, hx⟩ := hrow
    have hne : k.val ≠ x.toNat := by simpa [Writes, hfamily, hbyte, hx] using h
    simp only [execute]
    split
    · exact Registers.value_set_of_ne (by omega) hk hne.symm
    · rfl
  | draw x y height =>
    obtain ⟨hfamily, -⟩ := hrow
    have hlast : k.val ≠ 0xF := by simpa [Writes, hfamily] using h
    obtain ⟨rows, hread⟩ := read_draw haccepted
    simp only [execute, hread]
    exact Registers.value_setFlag_of_ne hk hlast
  | addIndex x =>
    obtain ⟨hfamily, hbyte, -⟩ := hrow
    have hlast : k.val ≠ 0xF := by simpa [Writes, hfamily, hbyte] using h
    exact Registers.value_setFlag_of_ne hk hlast
  | load x =>
    obtain ⟨hfamily, hbyte, hx⟩ := hrow
    have hbehind : x.toNat < k.val := by simpa [Writes, hfamily, hbyte, hx] using h
    have hread := Memory.read_of_le cpu.memory (Memory.readFault?_eq_none_iff.mp haccepted)
    simp only [Instruction.span] at hread
    simp only [execute, hread]
    rw [Registers.value_load _ hk, List.getElem?_eq_none]
    · rfl
    · rw [List.length_ofFn]
      exact hbehind
  | ret | call | storeDecimal | store =>
    simp only [execute]
    split <;> rfl
  | _ => rfl

theorem indexAfter_of_not_writes (hrow : Opcode.StandsFor cpu.opcode instruction)
    (h : ¬cpu.Writes .index) : cpu.indexAfter instruction = cpu.index := by
  cases instruction with
  | setIndex | addIndex | setGlyph | store | load =>
    simp only [Opcode.StandsFor] at hrow
    simp only [Writes] at h
    omega
  | _ => rfl

theorem stackAfter_of_not_writes (hrow : Opcode.StandsFor cpu.opcode instruction)
    (h : ¬cpu.Writes .stack) : cpu.stackAfter instruction = cpu.stack := by
  cases instruction with
  | call | ret =>
    simp only [Opcode.StandsFor] at hrow
    simp only [Writes] at h
    omega
  | _ => rfl

theorem randomAfter_of_not_writes (hrow : Opcode.StandsFor cpu.opcode instruction)
    (h : ¬cpu.Writes .source) : cpu.randomAfter instruction = cpu.random := by
  cases instruction with
  | random x mask => exact absurd hrow.1 h
  | _ => rfl

theorem screen_of_not_writes (hrow : Opcode.StandsFor cpu.opcode instruction)
    (h : ¬cpu.Writes .screen) :
    (cpu.execute screen keypad instruction).screen = screen := by
  cases instruction with
  | clear => exact absurd (.inl hrow) h
  | draw x y height => exact absurd (.inr hrow.1) h
  | ret | call | waitKey | storeDecimal | store | load =>
    simp only [execute]
    split <;> rfl
  | _ => rfl

/-- A store reaches only bytes that its opcode names. -/
theorem storedAt?_of_not_writes (hrow : Opcode.StandsFor cpu.opcode instruction)
    {a : Fin Memory.size} (h : ¬cpu.Writes (.byte a)) :
    Executed.storedAt? ⟨cpu, instruction⟩ a = none := by
  cases hbyte : Executed.storedAt? ⟨cpu, instruction⟩ a with
  | none => rfl
  | some byte =>
    obtain ⟨hlow, hhigh⟩ := Executed.range_of_storedAt? hbyte
    simp only [Writes] at h
    cases instruction with
    | storeDecimal x | store x =>
      obtain ⟨hfamily, hselector, hx⟩ := hrow
      simp only [Instruction.span] at hlow hhigh
      omega
    | _ => cases hbyte

/-- A return writes to no slot, and a call only to the one that it fills. -/
theorem slot_of_not_writes (hrow : Opcode.StandsFor cpu.opcode instruction)
    {k : Fin CallStack.capacity} (h : ¬cpu.Writes (.slot k)) :
    (cpu.stackAfter instruction).slots[k] = cpu.stack.slots[k] := by
  cases instruction with
  | ret =>
    cases hpop : cpu.stack.pop? with
    | none => simp only [stackAfter, hpop, Option.map_none, Option.getD_none]
    | some top =>
      simp only [stackAfter, hpop, Option.map_some, Option.getD_some,
        CallStack.slots_of_pop? hpop]
  | call target =>
    have hne : cpu.stack.depth ≠ k.val := fun heq => h ⟨hrow.1, heq.symm⟩
    cases hpush : cpu.stack.push? cpu.counter with
    | none => simp only [stackAfter, hpush, Option.getD_none]
    | some next =>
      simp only [stackAfter, hpush, Option.getD_some]
      exact (CallStack.getElem_slots_of_push? hpush k k.isLt).trans (if_neg hne)
  | _ => rfl

/-! ## What a step leaves alone -/

variable {loan : Loan} {part : Part}

/-- An executed instruction keeps all parts that its opcode does not name. -/
theorem Executes.keptBy (hexec : cpu.Executes loan instruction) (h : ¬cpu.Writes part) :
    part.KeptBy cpu loan.screen (cpu.outcome loan) := by
  have hrow := (peek_eq_some_iff_standsFor.mp hexec.peek).2
  cases part with
  | register k =>
    change (cpu.after loan).registers.value k = cpu.registers.value k
    rw [hexec.registers]
    exact value_execute loan.screen loan.keypad hexec.accepted hrow h
  | index => exact hexec.index.trans (indexAfter_of_not_writes hrow h)
  | stack => exact hexec.stack.trans (stackAfter_of_not_writes hrow h)
  | slot k =>
    change (cpu.after loan).stack.slots[k] = cpu.stack.slots[k]
    rw [hexec.stack]
    exact slot_of_not_writes hrow h
  | byte a =>
    have hbyte := hexec.getElem_memory a a.isLt
    rw [storedAt?_of_not_writes hrow h, Option.getD_none] at hbyte
    exact hbyte
  | source => exact hexec.random.trans (randomAfter_of_not_writes hrow h)
  | screen =>
    rw [Part.KeptBy, hexec.outcome_eq]
    exact screen_of_not_writes loan.screen loan.keypad hrow h

/-- A step that is made either executes an instruction or is blocked. -/
theorem executes_or_blocked (loan : Loan) {cycle : Cycle}
    (h : (cpu.outcome loan).result = .ok cycle) :
    (∃ tone instruction, cycle = .progressed tone ∧ cpu.Executes loan instruction) ∨
      cycle = .blocked ∧ cpu.outcome loan = ⟨.ok .blocked, cpu, loan.screen⟩ := by
  obtain ⟨instruction, hpeek, haccepted, -⟩ := exists_row_of_ok loan.screen loan.keypad h
  by_cases hflow : cpu.flow loan.keypad instruction = .wait
  · have hblocked : cpu.outcome loan = ⟨.ok .blocked, cpu, loan.screen⟩ := by
      rw [outcome, step_of_accepted _ _ hpeek haccepted, hflow,
        execute_of_wait _ _ haccepted hflow]
      rfl
    rw [hblocked] at h
    cases h
    exact .inr ⟨rfl, hblocked⟩
  · have hexec := (executes_of_flow hpeek haccepted hflow).1
    rw [hexec.outcome_eq] at h
    cases h
    exact .inl ⟨_, instruction, rfl, hexec⟩

/-- The timers as an instruction leaves them for the tick. -/
theorem toNat_timersAfter (hrow : Opcode.StandsFor cpu.opcode instruction) (timer : Timer) :
    ((cpu.timersAfter instruction).value timer).toNat =
      if Opcode.Sets cpu.opcode timer then cpu.registers.value (cpu.opcode / 0x100 % 0x10)
      else (cpu.timers.value timer).toNat := by
  cases instruction with
  | setDelay x | setSound x =>
    obtain ⟨hfamily, hbyte, hx⟩ := hrow
    cases timer <;>
      simp [Opcode.Sets, timersAfter, Timers.value, hfamily, hbyte, hx]
  | _ =>
    rw [if_neg]
    · rfl
    · simp only [Opcode.StandsFor] at hrow
      cases timer <;> simp only [Opcode.Sets] <;> omega

/-- Whatever the state, a step that is made changes no part that the opcode at the program
counter does not name. The two timers lose one if the step makes progress, or as much as is
left, and none if it is blocked; an opcode that sets a timer puts the register there before. -/
theorem step_keeps_unwritten (cpu : Cpu) (screen : Screen) (keypad : Keypad) :
    let outcome := cpu.step screen keypad
    ∀ cycle, outcome.result = .ok cycle →
      (∀ part, ¬cpu.Writes part → part.KeptBy cpu screen outcome) ∧
      ∀ timer, (outcome.cpu.timers.value timer).toNat =
        match cycle with
        | .progressed _ =>
          (if Opcode.Sets cpu.opcode timer then cpu.registers.value (cpu.opcode / 0x100 % 0x10)
            else (cpu.timers.value timer).toNat) - 1
        | .blocked => (cpu.timers.value timer).toNat := by
  intro outcome cycle hcycle
  obtain ⟨tone, instruction, rfl, hexec⟩ | ⟨rfl, hblocked⟩ :=
    executes_or_blocked ⟨screen, keypad⟩ hcycle
  · refine ⟨fun part hpart => hexec.keptBy hpart, ?_⟩
    intro timer
    have hrow := (peek_eq_some_iff_standsFor.mp hexec.peek).2
    have htimers : outcome.cpu.timers = _ := hexec.timers
    rw [htimers, Timers.value_tick, toNat_timersAfter hrow]
  · have hsame : outcome = ⟨.ok .blocked, cpu, screen⟩ := hblocked
    rw [hsame]
    refine ⟨fun part _ => ?_, fun timer => rfl⟩
    cases part <;> rfl

/-- A load of two registers does not reach the third. -/
theorem load_keeps_next_register :
    let rom : Rom := ⟨[0x62, 0x07, 0xF1, 0x65], by decide⟩
    let cpu := (ofSource rom (Random.ofSeed 0)).run [⟨Screen.blank, Keypad.empty⟩]
    let outcome := cpu.step Screen.blank Keypad.empty
    outcome.result = .ok (.progressed false) ∧ cpu.registers.value 2 = 7 ∧
      outcome.cpu.registers.value 2 = 7 := by
  intro rom cpu outcome
  obtain ⟨hresult, hopcode, hvalue⟩ : outcome.result = .ok (.progressed false) ∧
      cpu.opcode = 0xF165 ∧ cpu.registers.value 2 = 7 := by decide +kernel
  have hwrites : ¬cpu.Writes (.register ⟨2, by decide⟩) := by simp [Writes, hopcode]
  obtain ⟨hkept, -⟩ := step_keeps_unwritten cpu Screen.blank Keypad.empty _ hresult
  exact ⟨hresult, hvalue, (hkept _ hwrites).trans hvalue⟩

end Cpu

end Chip8
