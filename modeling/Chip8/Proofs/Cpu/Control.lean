import Chip8.Proofs.Cpu.Obstacles
import Chip8.Proofs.Cpu.Picture
import Mathlib.Control.Monad.Basic
import Mathlib.Logic.Basic

/-!
# Where the program counter goes

The opcode at the program counter, the registers, the keys and the innermost pending call
decide where a step leads. There are five ways: to an address of the opcode, behind a call,
past one instruction, nowhere, and else to the next instruction. All places are numbers
here: no sum on the way to them wraps.
-/

namespace Chip8

/-- Where a way to go on leads from a given place. -/
def Flow.place (counter : Nat) : Flow → Nat
  | .next => counter + 2
  | .skip => counter + 4
  | .jump target => target.toNat
  | .wait => counter

/-- Two opcodes for opposite tests of the same operands. -/
def Opcode.Opposite (first second : Nat) : Prop :=
  first / 0x1000 = 0x3 ∧ second / 0x1000 = 0x4 ∧ first % 0x1000 = second % 0x1000 ∨
  first / 0x1000 = 0x5 ∧ first % 0x10 = 0x0 ∧ second / 0x1000 = 0x9 ∧
    first / 0x10 % 0x100 = second / 0x10 % 0x100 ∨
  first / 0x1000 = 0xE ∧ first % 0x100 = 0x9E ∧ second / 0x1000 = 0xE ∧
    second % 0x100 = 0xA1 ∧ first / 0x100 % 0x10 = second / 0x100 % 0x10

/-- What the register with a given number holds, as a number. -/
def Registers.value (registers : Registers) (number : Nat) : Nat :=
  (registers.get (UInt8.ofNat number)).toNat

/-- A register is found by its number. -/
@[simp] theorem Registers.value_toNat (registers : Registers) (x : UInt8) :
    registers.value x.toNat = (registers.get x).toNat := by
  rw [value, UInt8.ofNat_toNat]

theorem Flow.place_skipIf (counter : Nat) (condition : Bool) :
    (skipIf condition).place counter =
      if skipIf condition = .skip then counter + 4 else counter + 2 := by
  cases condition <;> rfl

namespace Cpu

/-- Whether the test of an opcode asks to skip an instruction. -/
def Skips (cpu : Cpu) (keypad : Keypad) (opcode : Nat) : Prop :=
  let family := opcode / 0x1000
  let byte := opcode % 0x100
  let vx := cpu.registers.value (opcode / 0x100 % 0x10)
  let vy := cpu.registers.value (opcode / 0x10 % 0x10)
  family = 0x3 ∧ vx = byte ∨
  family = 0x4 ∧ vx ≠ byte ∨
  family = 0x5 ∧ opcode % 0x10 = 0x0 ∧ vx = vy ∨
  family = 0x9 ∧ vx ≠ vy ∨
  family = 0xE ∧ byte = 0x9E ∧ keypad.isDown (UInt8.ofNat (vx % 16)) = true ∨
  family = 0xE ∧ byte = 0xA1 ∧ keypad.isDown (UInt8.ofNat (vx % 16)) = false

instance (cpu : Cpu) (keypad : Keypad) (opcode : Nat) : Decidable (cpu.Skips keypad opcode) :=
  inferInstanceAs (Decidable (_ ∨ _))

/-- Where the step leads, if it is made. A return has no place to go to unless a call is
pending. -/
def destination? (cpu : Cpu) (keypad : Keypad) : Option Nat :=
  let counter := cpu.counter.toNat
  let family := cpu.opcode / 0x1000
  let address := cpu.opcode % 0x1000
  if family = 0x1 ∨ family = 0x2 then some address
  else if family = 0xB then some (address + cpu.registers.value 0)
  else if family = 0x0 ∧ cpu.opcode % 0x10 = 0xE then
    cpu.stack.frames.getLast?.map fun caller => caller.toNat + 2
  else if family = 0xF ∧ cpu.opcode % 0x100 = 0x0A ∧
      ∀ k : Fin Keypad.count, keypad.isDown (UInt8.ofNat k) = false then some counter
  else if cpu.Skips keypad cpu.opcode then some (counter + 4)
  else some (counter + 2)

/-- Whether an opcode skips when it is decoded and executed. -/
def SkipsOn (cpu : Cpu) (screen : Screen) (keypad : Keypad) (opcode : UInt16) : Prop :=
  ∃ instruction, Instruction.decode? opcode = some instruction ∧
    (cpu.execute screen keypad instruction).result = .ok .skip

variable {cpu : Cpu} {instruction : Instruction} (screen : Screen) (keypad : Keypad)

/-! ## Steps that are made -/

/-- A step that is not refused has an instruction to come, the one of the opcode's row. -/
theorem exists_row_of_ok {cycle : Cycle} (h : (cpu.step screen keypad).result = .ok cycle) :
    ∃ instruction, cpu.peek = .ok (some instruction) ∧ cpu.refusal? instruction = none ∧
      Opcode.StandsFor cpu.opcode instruction := by
  have hfault : cpu.fault? = none := by
    rw [Option.eq_none_iff_forall_ne_some]
    intro fault hfault
    rw [(step_result_eq_error_iff screen keypad).mpr hfault] at h
    cases h
  obtain ⟨instruction, hpeek, haccepted⟩ := exists_accepted hfault
  exact ⟨instruction, hpeek, haccepted, (peek_eq_some_iff_standsFor.mp hpeek).2⟩

/-- A step leads to the place that the flow of its instruction says. -/
theorem Bounded.counter_step (h : cpu.Bounded) (hpeek : cpu.peek = .ok (some instruction))
    (haccepted : cpu.refusal? instruction = none) :
    (cpu.step screen keypad).cpu.counter.toNat =
      (cpu.flow keypad instruction).place cpu.counter.toNat := by
  have hcounter := execute_counter screen keypad cpu instruction
  rw [step_of_accepted screen keypad hpeek haccepted, complete, hcounter]
  cases cpu.flow keypad instruction with
  | next => exact toNat_behind h.counter_le (by decide)
  | skip => exact toNat_behind h.counter_le (by decide)
  | jump target => rfl
  | wait => exact congrArg UInt16.toNat hcounter

/-! ## Opcodes and flows -/

variable {keypad} {opcode : Nat}

/-- Of a key's number only the low half counts. -/
theorem isDown_low (keypad : Keypad) (key : UInt8) :
    keypad.isDown (UInt8.ofNat (key.toNat % 16)) = keypad.isDown key := by
  have hindex : Keypad.index (UInt8.ofNat (key.toNat % 16)) = Keypad.index key := by
    have hlt := key.toNat_lt
    apply Fin.ext
    simp only [Keypad.index, Keypad.count, UInt8.toNat_ofNat']
    omega
  simp only [Keypad.isDown, hindex]

/-- No key is down just when none of the sixteen is. -/
theorem firstDown?_eq_none_iff_all_up :
    keypad.firstDown? = none ↔
      ∀ k : Fin Keypad.count, keypad.isDown (UInt8.ofNat k) = false := by
  rw [Keypad.firstDown?_eq_none_iff]
  constructor
  · intro h k
    exact h _
  · intro h key
    rw [← isDown_low]
    exact h ⟨key.toNat % 16, Nat.mod_lt _ (by decide)⟩

/-- An instruction skips just when the test of its opcode asks for it. -/
theorem flow_eq_skip_iff (hrow : Opcode.StandsFor opcode instruction) :
    cpu.flow keypad instruction = .skip ↔ cpu.Skips keypad opcode := by
  have hskip : ∀ condition, Flow.skipIf condition = .skip ↔ condition = true := by
    intro condition
    cases condition <;> simp [Flow.skipIf]
  cases instruction with
  | skipIfByte x byte | skipUnlessByte x byte =>
    obtain ⟨hfamily, hx, hbyte⟩ := hrow
    simp [flow, Skips, hskip, hfamily, hx, hbyte, UInt8.toNat_inj]
  | skipIfSame x y =>
    obtain ⟨hfamily, hdigit, hx, hy⟩ := hrow
    simp [flow, Skips, hskip, hfamily, hdigit, hx, hy, UInt8.toNat_inj]
  | skipUnlessSame x y =>
    obtain ⟨hfamily, hx, hy⟩ := hrow
    simp [flow, Skips, hskip, hfamily, hx, hy, UInt8.toNat_inj]
  | skipIfDown x | skipUnlessDown x =>
    obtain ⟨hfamily, hbyte, hx⟩ := hrow
    simp [flow, Skips, hskip, hfamily, hbyte, hx, isDown_low]
  | ret =>
    obtain ⟨hfamily, -⟩ := hrow
    cases hpop : cpu.stack.pop? <;> simp [flow, Skips, hpop, hfamily]
  | waitKey x =>
    obtain ⟨hfamily, -⟩ := hrow
    by_cases hkey : keypad.firstDown? = none <;> simp [flow, Skips, hkey, hfamily]
  | _ =>
    obtain ⟨hfamily, -⟩ := hrow
    simp [flow, Skips, hfamily]

/-- An opcode that neither jumps nor waits leads to the next instruction or past it. -/
private theorem destination?_of_straight
    (h : ¬(cpu.opcode / 0x1000 = 0x1 ∨ cpu.opcode / 0x1000 = 0x2) ∧
      cpu.opcode / 0x1000 ≠ 0xB ∧ ¬(cpu.opcode / 0x1000 = 0x0 ∧ cpu.opcode % 0x10 = 0xE) ∧
      ¬(cpu.opcode / 0x1000 = 0xF ∧ cpu.opcode % 0x100 = 0x0A)) :
    cpu.destination? keypad =
      some (if cpu.Skips keypad cpu.opcode then cpu.counter.toNat + 4
        else cpu.counter.toNat + 2) := by
  obtain ⟨hjump, hoffset, hreturn, hwait⟩ := h
  rw [destination?, if_neg hjump, if_neg hoffset, if_neg hreturn,
    if_neg fun hkeys => hwait ⟨hkeys.1, hkeys.2.1⟩]
  split <;> rfl

/-- The flow of an instruction that is not refused leads where its opcode says. -/
theorem Bounded.destination?_of_row (h : cpu.Bounded) (haccepted : cpu.refusal? instruction = none)
    (hrow : Opcode.StandsFor cpu.opcode instruction) :
    cpu.destination? keypad = some ((cpu.flow keypad instruction).place cpu.counter.toNat) := by
  have hskips : cpu.flow keypad instruction = .skip ↔ cpu.Skips keypad cpu.opcode :=
    flow_eq_skip_iff hrow
  cases instruction with
  | jump target | call target =>
    obtain ⟨hfamily, haddress⟩ := hrow
    simp [destination?, flow, Flow.place, hfamily, haddress]
  | jumpOffset base =>
    obtain ⟨hfamily, haddress⟩ := hrow
    have hoffset := toNat_toUInt16_le (cpu.registers.get 0)
    have hsum : (base + (cpu.registers.get 0).toUInt16).toNat =
        base.toNat + (cpu.registers.get 0).toNat := by
      rw [toNat_add_of_lt (by omega), UInt8.toNat_toUInt16]
    simp only [destination?, flow, Flow.place, hfamily, haddress, hsum]
    rfl
  | ret =>
    obtain ⟨hfamily, hdigit⟩ := hrow
    cases hpop : cpu.stack.pop? with
    | none => simp [refusal?, hpop] at haccepted
    | some top =>
      have hcaller := h.caller_le hpop
      have hlast : cpu.stack.frames.getLast? = some top.1 := by
        rw [CallStack.frames_of_pop? hpop, List.getLast?_concat]
      have hflow : cpu.flow keypad .ret = .jump (top.1 + UInt16.ofNat Instruction.size) := by
        simp only [flow, hpop]
      rw [hflow, Flow.place, toNat_behind (by omega) (by decide)]
      simp [destination?, hfamily, hdigit, hlast, Instruction.size]
  | waitKey x =>
    obtain ⟨hfamily, hbyte, -⟩ := hrow
    cases hkey : keypad.firstDown? with
    | none =>
      have hkeys := firstDown?_eq_none_iff_all_up.mp hkey
      simp [destination?, flow, Flow.place, hfamily, hbyte, hkeys, hkey]
    | some key =>
      have hkeys : ¬∀ k : Fin Keypad.count, keypad.isDown (UInt8.ofNat k) = false := by
        rw [← firstDown?_eq_none_iff_all_up, hkey]
        exact Option.some_ne_none key
      have hflow : cpu.flow keypad (.waitKey x) = .next := by simp [flow, hkey]
      have hstraight : ¬cpu.Skips keypad cpu.opcode := by simp [← hskips, hflow]
      rw [hflow, Flow.place, destination?, if_neg (by omega), if_neg (by omega),
        if_neg (by omega), if_neg (by simp only [hkeys, and_false, not_false_eq_true]),
        if_neg hstraight]
  | skipIfByte | skipUnlessByte | skipIfSame | skipUnlessSame | skipIfDown | skipUnlessDown =>
    simp only [Opcode.StandsFor] at hrow
    rw [destination?_of_straight (by omega), flow, Flow.place_skipIf]
    simp only [flow] at hskips
    simp only [hskips]
  | _ =>
    simp only [Opcode.StandsFor] at hrow
    rw [destination?_of_straight (by omega), if_neg]
    · rfl
    · rw [← hskips]
      simp [flow]

/-! ## Opposite tests -/

/-- An instruction that skips is never refused. -/
theorem refusal?_of_skip (h : cpu.flow keypad instruction = .skip) :
    cpu.refusal? instruction = none := by
  cases instruction with
  | ret => cases hpop : cpu.stack.pop? <;> simp [flow, hpop] at h
  | call | draw | storeDecimal | store | load => cases h
  | _ => rfl

theorem skipsOn_iff {opcode : UInt16} :
    cpu.SkipsOn screen keypad opcode ↔ cpu.Skips keypad opcode.toNat := by
  constructor
  · rintro ⟨instruction, hdecode, hresult⟩
    have haccepted := refusal?_eq_none_of_result screen keypad hresult
    rw [execute_result_of_refusal? screen keypad haccepted, Except.ok.injEq] at hresult
    exact (flow_eq_skip_iff (Instruction.standsFor_of_decode? hdecode)).mp hresult
  · intro hskips
    cases hdecode : Instruction.decode? opcode with
    | none =>
      have hunlisted := Instruction.decode?_eq_none_iff.mp hdecode
      simp only [Skips, Opcode.Unlisted] at hskips hunlisted
      omega
    | some instruction =>
      have hrow := Instruction.standsFor_of_decode? hdecode
      have hflow : cpu.flow keypad instruction = .skip := (flow_eq_skip_iff hrow).mpr hskips
      refine ⟨instruction, hdecode, ?_⟩
      rw [execute_result_of_refusal? screen keypad (refusal?_of_skip hflow), hflow]

/-- Of two opposite tests of the same operands just one asks to skip. -/
theorem skips_xor_of_opposite {first second : Nat} (h : Opcode.Opposite first second) :
    Xor (cpu.Skips keypad first) (cpu.Skips keypad second) := by
  rw [xor_iff_iff_not]
  obtain ⟨hfirst, hsecond, hsame⟩ | ⟨hfirst, hdigit, hsecond, hsame⟩ |
    ⟨hfirst, hbyte, hsecond, hbyte', hsame⟩ := h
  · have hx : first / 0x100 % 0x10 = second / 0x100 % 0x10 := by omega
    have hbyte : first % 0x100 = second % 0x100 := by omega
    simp [Skips, hfirst, hsecond, hx, hbyte]
  · have hx : first / 0x100 % 0x10 = second / 0x100 % 0x10 := by omega
    have hy : first / 0x10 % 0x10 = second / 0x10 % 0x10 := by omega
    simp [Skips, hfirst, hdigit, hsecond, hx, hy]
  · simp [Skips, hfirst, hbyte, hsecond, hbyte', hsame]

/-- In every state that a run leads to, a step that is made leads to the address of a jump
or a call, to the address and `V0` of a jump with an offset, behind the innermost pending
call, nowhere while it waits for a key, past an instruction if the test of the opcode asks
for it, and else to the next instruction. Of two opposite tests of the same operands just
one skips. -/
theorem counter_after_step (rom : Rom) (random : Random) (loans : List Loan) (screen : Screen)
    (keypad : Keypad) :
    let cpu := (ofSource rom random).run loans
    let outcome := cpu.step screen keypad
    (∀ cycle, outcome.result = .ok cycle →
      cpu.destination? keypad = some outcome.cpu.counter.toNat) ∧
    (∀ first second : UInt16, Opcode.Opposite first.toNat second.toNat →
      Xor (cpu.SkipsOn screen keypad first) (cpu.SkipsOn screen keypad second)) := by
  intro cpu outcome
  have hbounded : cpu.Bounded := (bounded_ofSource rom random).run loans
  refine ⟨?_, ?_⟩
  · intro cycle hcycle
    obtain ⟨instruction, hpeek, haccepted, hrow⟩ := exists_row_of_ok screen keypad hcycle
    rw [hbounded.destination?_of_row haccepted hrow]
    exact congrArg some (hbounded.counter_step screen keypad hpeek haccepted).symm
  · intro first second hopposite
    rw [skipsOn_iff, skipsOn_iff]
    exact skips_xor_of_opposite hopposite

/-- A jump leads to a test that holds, which skips an instruction; both steps are made. -/
theorem jump_leads_to_taken_skip :
    let rom : Rom := ⟨[0x12, 0x04, 0x00, 0x00, 0x30, 0x00], by decide⟩
    let loan : Loan := ⟨Screen.blank, Keypad.empty⟩
    let start := ofSource rom (Random.ofSeed 0)
    let jumped := start.step Screen.blank Keypad.empty
    let skipped := (start.run [loan]).step Screen.blank Keypad.empty
    start.opcode = 0x1204 ∧ jumped.result = .ok (.progressed false) ∧
      jumped.cpu.counter.toNat = 0x204 ∧
      (start.run [loan]).opcode = 0x3000 ∧ skipped.result = .ok (.progressed false) ∧
      skipped.cpu.counter.toNat = 0x208 := by
  intro rom loan start jumped skipped
  obtain ⟨hopcode, hjumped, htarget⟩ : start.opcode = 0x1204 ∧
      jumped.result = .ok (.progressed false) ∧
      start.destination? Keypad.empty = some 0x204 := by decide +kernel
  obtain ⟨hopcode', hskipped, htarget'⟩ : (start.run [loan]).opcode = 0x3000 ∧
      skipped.result = .ok (.progressed false) ∧
      (start.run [loan]).destination? Keypad.empty = some 0x208 := by decide +kernel
  obtain ⟨hjump, -⟩ :=
    counter_after_step rom (Random.ofSeed 0) [] Screen.blank Keypad.empty
  obtain ⟨hskip, -⟩ :=
    counter_after_step rom (Random.ofSeed 0) [loan] Screen.blank Keypad.empty
  refine ⟨hopcode, hjumped, ?_, hopcode', hskipped, ?_⟩
  · exact Option.some.inj ((hjump _ hjumped).symm.trans htarget)
  · exact Option.some.inj ((hskip _ hskipped).symm.trans htarget')

end Cpu

end Chip8
