import Chip8.Proofs.Cpu.Bounds

/-!
# What memory holds

Two instructions store to memory: one puts the decimal digits of a register at the
index, the other puts registers there. The history of a run tells what each of them put
where, and at every address memory holds what the last store to it put there, or what it
held at first. No store reaches the glyphs, so they never change.
-/

namespace Chip8

namespace Executed

/-- The byte that an executed instruction puts at an address, if it stores to it: one of
the hundreds, tens and ones of a register in the three bytes at the index, or one of the
registers up to the last one in the bytes from the index on. -/
def storedAt? (entry : Executed) (a : Nat) : Option UInt8 :=
  let start := entry.before.index.toNat
  let v := entry.before.registers.get
  match entry.instruction with
  | .storeDecimal x =>
    if a = start then some (v x / 100)
    else if a = start + 1 then some (v x / 10 % 10)
    else if a = start + 2 then some (v x % 10)
    else none
  | .store x =>
    if start ≤ a ∧ a ≤ start + x.toNat then some (v (UInt8.ofNat (a - start))) else none
  | _ => none

/-- A store reaches the bytes that its instruction works on. -/
theorem range_of_storedAt? {entry : Executed} {a : Nat} {byte : UInt8}
    (h : entry.storedAt? a = some byte) :
    entry.before.index.toNat ≤ a ∧
      a < entry.before.index.toNat + entry.instruction.span := by
  obtain ⟨cpu, instruction⟩ := entry
  cases instruction with
  | storeDecimal x =>
    simp only [storedAt?, Instruction.span] at h ⊢
    split at h
    · omega
    · split at h
      · omega
      · obtain ⟨hones, -⟩ := Option.ite_none_right_eq_some.mp h
        omega
  | store x =>
    simp only [storedAt?, Instruction.span] at h ⊢
    obtain ⟨hrange, -⟩ := Option.ite_none_right_eq_some.mp h
    omega
  | _ => cases h

end Executed

/-- The byte that the last store of a history to an address puts there. -/
def lastStored? (history : List Executed) (a : Nat) : Option UInt8 :=
  history.reverse.findSome? (·.storedAt? a)

theorem lastStored?_append (first second : List Executed) (a : Nat) :
    lastStored? (first ++ second) a = (lastStored? second a).or (lastStored? first a) := by
  simp only [lastStored?, List.reverse_append, List.findSome?_append]

theorem lastStored?_singleton (entry : Executed) (a : Nat) :
    lastStored? [entry] a = entry.storedAt? a := by
  simp [lastStored?]

namespace Cpu

variable {cpu : Cpu} {loan : Loan} {instruction : Instruction}

/-- The decimal digits of a byte are at most nine and spell it. -/
theorem digits_spell (value : UInt8) :
    (value / 100).toNat ≤ 9 ∧ (value / 10 % 10).toNat ≤ 9 ∧ (value % 10).toNat ≤ 9 ∧
      100 * (value / 100).toNat + 10 * (value / 10 % 10).toNat + (value % 10).toNat =
        value.toNat := by
  have hlt := value.toNat_lt
  simp only [UInt8.toNat_div, UInt8.toNat_mod, UInt8.reduceToNat]
  omega

/-- An executed store changes each byte to what it puts there. -/
theorem Executes.getElem_memory (h : cpu.Executes loan instruction) (a : Nat)
    (ha : a < Memory.size) :
    (cpu.after loan).memory.bytes[a] =
      (Executed.storedAt? ⟨cpu, instruction⟩ a).getD cpu.memory.bytes[a] := by
  simp only [h.memory]
  cases instruction with
  | storeDecimal x =>
    have hlen := length_decimalDigits (cpu.registers.get x)
    simp only [memoryAfter, Memory.getElem_overwrite, Executed.storedAt?]
    by_cases hrange : cpu.index.toNat ≤ a ∧ a < cpu.index.toNat + 3
    · rw [dif_pos ⟨hrange.1, by omega⟩]
      obtain rfl | rfl | rfl : a = cpu.index.toNat ∨ a = cpu.index.toNat + 1 ∨
          a = cpu.index.toNat + 2 := by omega
      all_goals simp [decimalDigits]
    · rw [dif_neg (by omega), if_neg (by omega), if_neg (by omega), if_neg (by omega)]
      rfl
  | store x =>
    have hlen := Registers.length_through cpu.registers x
    simp only [memoryAfter, Memory.getElem_overwrite, Executed.storedAt?]
    by_cases hrange : cpu.index.toNat ≤ a ∧ a ≤ cpu.index.toNat + x.toNat
    · rw [dif_pos ⟨hrange.1, by omega⟩, if_pos hrange, Option.getD_some]
      simp [Registers.through]
    · rw [dif_neg (by omega), if_neg hrange, Option.getD_none]
  | _ => rfl

/-- After a run memory holds at each address what the last store put there. -/
theorem getElem_memory_run (cpu : Cpu) (loans : List Loan) (a : Nat) (ha : a < Memory.size) :
    (cpu.run loans).memory.bytes[a] =
      (lastStored? (cpu.history loans) a).getD cpu.memory.bytes[a] := by
  induction loans generalizing cpu with
  | nil => rfl
  | cons loan loans ih =>
    rw [history, lastStored?_append]
    simp only [run_cons, ih]
    obtain ⟨instruction, hexec, hentry⟩ | ⟨heq, hnone⟩ := cpu.executes_or_after_eq loan
    · rw [hentry, hexec.getElem_memory a ha, Option.toList_some, lastStored?_singleton]
      cases lastStored? ((cpu.after loan).history loans) a <;> rfl
    · simp only [hnone, heq, Option.toList_none]
      cases lastStored? (cpu.history loans) a <;> rfl

/-- A run whose stores do not touch an address leaves the byte there as it was. -/
theorem getElem_memory_of_untouched {loans : List Loan} {a : Nat} (ha : a < Memory.size)
    (h : ∀ entry ∈ cpu.history loans, entry.storedAt? a = none) :
    (cpu.run loans).memory.bytes[a] = cpu.memory.bytes[a] := by
  have hnone : lastStored? (cpu.history loans) a = none := by
    rw [lastStored?, List.findSome?_eq_none_iff]
    exact fun entry hentry => h entry (List.mem_reverse.mp hentry)
  rw [getElem_memory_run, hnone, Option.getD_none]

/-- A store that is executed lies between the glyphs and the end of the memory. -/
theorem Executes.stored_range (h : cpu.Executes loan instruction) {a : Nat} {byte : UInt8}
    (hbyte : Executed.storedAt? ⟨cpu, instruction⟩ a = some byte) :
    Font.stop ≤ a ∧ a < Memory.size := by
  have hrange : cpu.index.toNat ≤ a ∧ a < cpu.index.toNat + instruction.span :=
    Executed.range_of_storedAt? hbyte
  have hspan : 0 < instruction.span := by omega
  have haccepted := h.accepted
  cases instruction with
  | storeDecimal x | store x =>
    obtain ⟨hlow, hhigh⟩ := (Memory.writeFault?_eq_none_iff hspan).mp haccepted
    exact ⟨Nat.le_trans hlow hrange.1, Nat.lt_of_lt_of_le hrange.2 hhigh⟩
  | _ => cases hbyte

/-- So does every store of a history. -/
theorem stored_range_of_mem_history {loans : List Loan} {entry : Executed}
    (h : entry ∈ cpu.history loans) {a : Nat} {byte : UInt8}
    (hbyte : entry.storedAt? a = some byte) : Font.stop ≤ a ∧ a < Memory.size := by
  obtain ⟨loan, hentry⟩ := executed_of_mem_history h
  exact (executes_of_executed? hentry).2.stored_range hbyte

/-! ## The glyphs -/

/-- A run leaves the glyphs in their places. -/
theorem holdsGlyphs_run (h : cpu.memory.HoldsGlyphs) (loans : List Loan) :
    (cpu.run loans).memory.HoldsGlyphs := by
  intro a hglyph ha
  have huntouched : ∀ entry ∈ cpu.history loans, entry.storedAt? a = none := by
    intro entry hentry
    cases hbyte : entry.storedAt? a with
    | none => rfl
    | some byte =>
      have hlow := (stored_range_of_mem_history hentry hbyte).1
      exact absurd hglyph (Nat.not_lt.mpr hlow)
  rw [getElem_memory_of_untouched ha huntouched]
  exact h a hglyph ha

/-- Whoever asks for the glyph of a digit finds its rows at the index. -/
theorem Executes.read_glyph {x : UInt8} (h : cpu.Executes loan (.setGlyph x))
    (hglyphs : cpu.memory.HoldsGlyphs) (hdigit : (cpu.registers.get x).toNat ≤ 15) :
    (cpu.after loan).memory.read (cpu.after loan).index Font.glyphSize =
      .ok ((Font.glyphs.drop ((cpu.registers.get x).toNat * Font.glyphSize)).take
        Font.glyphSize) := by
  have hindex : (cpu.after loan).index.toNat = (cpu.registers.get x).toNat * Font.glyphSize := by
    rw [h.index, indexAfter, toNat_glyphAddress, Font.start, Nat.zero_add]
  have hlength : Font.glyphs.length = 16 * Font.glyphSize := rfl
  have hsize : 16 * Font.glyphSize < Memory.size := by decide
  have hrows : (cpu.registers.get x).toNat * Font.glyphSize + Font.glyphSize ≤
      16 * Font.glyphSize := by
    rw [← Nat.succ_mul]
    exact Nat.mul_le_mul_right _ (Nat.succ_le_succ hdigit)
  rw [Memory.read_of_le _ (by omega)]
  congr 1
  apply List.ext_getElem
  · simp only [List.length_ofFn, List.length_take, List.length_drop]
    omega
  · intro k hk hk'
    simp only [List.length_ofFn] at hk
    simp only [List.getElem_ofFn, List.getElem_take, List.getElem_drop, hindex, h.memory,
      memoryAfter]
    exact hglyphs _ (by omega) (by omega)

/-- In every state that a run leads to, each address holds what the last executed store
put there, or else what it held at first. Stored digits are at most nine and spell the
register that they come from. No store lies outside `0x050` to `0xFFF`, so the glyphs are
always in their places, and an index that is set to a glyph finds it. -/
theorem memory_of_run (rom : Rom) (random : Random) (loans : List Loan) :
    let start := ofSource rom random
    let cpu := start.run loans
    let history := start.history loans
    (∀ address : UInt16, address.toNat < 0x1000 →
      cpu.memory.byte address =
        match lastStored? history address.toNat with
        | some byte => .ok byte
        | none => start.memory.byte address) ∧
    (∀ entry ∈ history, ∀ x, entry.instruction = .storeDecimal x →
      ∃ hundreds tens ones : UInt8,
        entry.storedAt? entry.before.index.toNat = some hundreds ∧
        entry.storedAt? (entry.before.index.toNat + 1) = some tens ∧
        entry.storedAt? (entry.before.index.toNat + 2) = some ones ∧
        hundreds.toNat ≤ 9 ∧ tens.toNat ≤ 9 ∧ ones.toNat ≤ 9 ∧
        100 * hundreds.toNat + 10 * tens.toNat + ones.toNat =
          (entry.before.registers.get x).toNat) ∧
    (∀ entry ∈ history, ∀ a byte, entry.storedAt? a = some byte → 0x050 ≤ a ∧ a < 0x1000) ∧
    (∀ address : UInt16, address.toNat < 0x050 →
      ∃ byte, Font.glyphs[address.toNat]? = some byte ∧ cpu.memory.byte address = .ok byte) ∧
    (∀ loan x, cpu.executed? loan = some ⟨cpu, .setGlyph x⟩ →
      (cpu.registers.get x).toNat ≤ 15 →
      (cpu.after loan).memory.read (cpu.after loan).index 5 =
        .ok ((Font.glyphs.drop ((cpu.registers.get x).toNat * 5)).take 5)) := by
  intro start cpu history
  have hglyphs : cpu.memory.HoldsGlyphs := holdsGlyphs_run (Memory.holdsGlyphs_ofRom rom) loans
  refine ⟨?_, ?_, ?_, ?_, ?_⟩
  · intro address haddress
    have hbyte : cpu.memory.bytes[address.toNat] =
        (lastStored? history address.toNat).getD start.memory.bytes[address.toNat] :=
      getElem_memory_run start loans address.toNat haddress
    rw [Memory.byte_of_lt _ haddress, Memory.byte_of_lt _ haddress, hbyte]
    cases lastStored? history address.toNat <;> rfl
  · intro entry _ x hx
    refine ⟨_, _, _, ?_, ?_, ?_, digits_spell (entry.before.registers.get x)⟩
    · simp [Executed.storedAt?, hx]
    · simp [Executed.storedAt?, hx]
    · simp [Executed.storedAt?, hx]
  · intro entry hentry a byte hbyte
    exact stored_range_of_mem_history hentry hbyte
  · intro address haddress
    have hsize : address.toNat < Memory.size := Nat.lt_trans haddress (by decide)
    refine ⟨_, List.getElem?_eq_getElem haddress, ?_⟩
    rw [Memory.byte_of_lt _ hsize, hglyphs _ haddress hsize]
  · intro loan x hglyph hdigit
    exact (executes_of_executed? hglyph).2.read_glyph hglyphs hdigit

/-- The digits of 123 are stored at `0x300`, and whoever loads them finds them there. -/
theorem stored_digits_are_read_back :
    let rom : Rom := ⟨[0x60, 0x7B, 0xA3, 0x00, 0xF0, 0x33, 0xF2, 0x65], by decide⟩
    let loan : Loan := ⟨Screen.blank, Keypad.empty⟩
    let start := ofSource rom (Random.ofSeed 0)
    let cpu := start.run [loan, loan, loan]
    (start.history [loan, loan, loan]).map (·.instruction) =
        [.setByte 0 123, .setIndex 0x300, .storeDecimal 0] ∧
      cpu.memory.byte 0x300 = .ok 1 ∧ cpu.memory.byte 0x301 = .ok 2 ∧
      cpu.memory.byte 0x302 = .ok 3 ∧
      (cpu.after loan).registers.through 2 = [1, 2, 3] := by
  intro rom loan start cpu
  obtain ⟨hexecuted, hhundreds, htens, hones, hloaded⟩ :
      (start.history [loan, loan, loan]).map (·.instruction) =
        [.setByte 0 123, .setIndex 0x300, .storeDecimal 0] ∧
      lastStored? (start.history [loan, loan, loan]) 0x300 = some 1 ∧
      lastStored? (start.history [loan, loan, loan]) 0x301 = some 2 ∧
      lastStored? (start.history [loan, loan, loan]) 0x302 = some 3 ∧
      (cpu.after loan).registers.through 2 = [1, 2, 3] := by decide +kernel
  obtain ⟨hoverlay, -⟩ := memory_of_run rom (Random.ofSeed 0) [loan, loan, loan]
  have hbyte : ∀ (address : UInt16) (byte : UInt8), address.toNat < 0x1000 →
      lastStored? (start.history [loan, loan, loan]) address.toNat = some byte →
      cpu.memory.byte address = .ok byte := by
    intro address byte haddress hstored
    rw [hoverlay address haddress, hstored]
  exact ⟨hexecuted, hbyte 0x300 1 (by decide) hhundreds, hbyte 0x301 2 (by decide) htens,
    hbyte 0x302 3 (by decide) hones, hloaded⟩

end Cpu

end Chip8
