import Chip8.Proofs.Cpu.Footprint

/-!
# Registers saved in memory

A program saves its first registers by storing them and gets them back by loading from the
same index. What comes between does not matter as long as no store touches the saved bytes,
and fewer registers may be loaded than were saved. The other way round, registers that were
loaded may be stored where they came from, and memory stays as it was.
-/

namespace Chip8.Cpu

variable {cpu : Cpu} {loan : Loan} {x : UInt8}

/-! ## Stores and loads of registers -/

/-- Stored registers lie inside the memory, and so does the index up to its end. -/
theorem Executes.store_le (h : cpu.Executes loan (.store x)) :
    cpu.index.toNat + (x.toNat + 1) ≤ Memory.size :=
  index_add_span_le h.accepted (Nat.succ_pos _)

theorem Executes.load_le (h : cpu.Executes loan (.load x)) :
    cpu.index.toNat + (x.toNat + 1) ≤ Memory.size :=
  index_add_span_le h.accepted (Nat.succ_pos _)

/-- A store puts each register into the byte that its number leads to from the index. -/
theorem Executes.stored_register (h : cpu.Executes loan (.store x)) {k : Nat}
    (hk : k ≤ x.toNat) (ha : cpu.index.toNat + k < Memory.size) :
    (cpu.after loan).memory.bytes[cpu.index.toNat + k].toNat = cpu.registers.value k := by
  have hstored : Executed.storedAt? ⟨cpu, .store x⟩ (cpu.index.toNat + k) =
      some (cpu.registers.get (UInt8.ofNat k)) := by
    simp [Executed.storedAt?, hk]
  rw [h.getElem_memory _ ha, hstored]
  rfl

/-- A load takes each register from there. -/
theorem Executes.loaded_register (h : cpu.Executes loan (.load x)) {k : Nat}
    (hk : k ≤ x.toNat) (ha : cpu.index.toNat + k < Memory.size) :
    (cpu.after loan).registers.value k = cpu.memory.bytes[cpu.index.toNat + k].toNat := by
  have hx : x.toNat < 16 := h.fits
  have hread := Memory.read_of_le cpu.memory h.load_le
  rw [h.registers]
  simp only [execute, hread]
  rw [Registers.value_load _ (by omega), List.getElem?_ofFn, dif_pos (Nat.lt_succ_of_le hk)]
  rfl

/-- The registers behind the last loaded one are left alone. -/
theorem Executes.kept_register (h : cpu.Executes loan (.load x)) {k : Nat}
    (hk : x.toNat < k) (hlt : k < 16) :
    (cpu.after loan).registers.value k = cpu.registers.value k := by
  have hread := Memory.read_of_le cpu.memory h.load_le
  rw [h.registers]
  simp only [execute, hread]
  rw [Registers.value_load _ hlt, List.getElem?_ofFn, dif_neg (Nat.not_lt.mpr hk)]
  rfl

/-! ## Round trips -/

/-- Whatever lies in the memory from the index on can be loaded. -/
theorem executes_load (loan : Loan) {y : UInt8} (hpeek : cpu.peek = .ok (some (.load y)))
    (h : cpu.index.toNat + (y.toNat + 1) ≤ Memory.size) :
    cpu.Executes loan (.load y) ∧ cpu.executed? loan = some ⟨cpu, .load y⟩ :=
  executes_of_flow hpeek (Memory.readFault?_eq_none_iff.mpr h) (by simp [flow])

/-- And whatever lies behind the glyphs can be stored to. -/
theorem executes_store (loan : Loan) {y : UInt8} (hpeek : cpu.peek = .ok (some (.store y)))
    (hglyphs : Font.stop ≤ cpu.index.toNat) (h : cpu.index.toNat + (y.toNat + 1) ≤ Memory.size) :
    cpu.Executes loan (.store y) ∧ cpu.executed? loan = some ⟨cpu, .store y⟩ :=
  executes_of_flow hpeek ((Memory.writeFault?_eq_none_iff (Nat.succ_pos _)).mpr ⟨hglyphs, h⟩)
    (by simp [flow])

/-- A store of what lies in its place already changes no byte of the memory. -/
theorem Executes.memory_of_same (h : cpu.Executes loan (.store x))
    (hsame : ∀ k (ha : cpu.index.toNat + k < Memory.size), k ≤ x.toNat →
      cpu.registers.value k = cpu.memory.bytes[cpu.index.toNat + k].toNat) :
    (cpu.after loan).memory = cpu.memory := by
  have hbytes : (cpu.after loan).memory.bytes = cpu.memory.bytes := by
    apply Vector.ext
    intro a ha
    by_cases hrange : cpu.index.toNat ≤ a ∧ a ≤ cpu.index.toNat + x.toNat
    · obtain ⟨k, rfl⟩ := Nat.exists_eq_add_of_le hrange.1
      have hk : k ≤ x.toNat := by omega
      rw [← UInt8.toNat_inj, h.stored_register hk ha, hsame k ha hk]
    · have hnone : Executed.storedAt? ⟨cpu, .store x⟩ a = none := if_neg hrange
      rw [h.getElem_memory a ha, hnone, Option.getD_none]
  exact congrArg Memory.mk hbytes

/-- Whatever the state, registers that are stored can be loaded again later in the run, all
or the first of them, provided that no executed store has touched their bytes and that the
index is where it was: they then hold what they held when they were stored, the registers
behind them are left alone, and the index is behind the last byte that was loaded, as it was
behind the last one that was stored. The other way round, registers that are loaded can be
stored in their place, unless glyphs lie there: if neither they nor the memory changed in
between, memory is as it was. -/
theorem stored_registers_can_be_loaded (cpu : Cpu) :
    (∀ save x, cpu.executed? save = some ⟨cpu, .store x⟩ →
      let start := cpu.index.toNat
      let saved := cpu.after save
      (saved.index.toNat = start + x.toNat + 1 ∧ start + x.toNat + 1 ≤ 4096) ∧
      ∀ between load y,
        let before := saved.run between
        let after := before.after load
        (∀ entry ∈ saved.history between, ∀ a, start ≤ a → a ≤ start + x.toNat →
          entry.storedAt? a = none) →
        before.index = cpu.index → y.toNat ≤ x.toNat → before.peek = .ok (some (.load y)) →
        before.executed? load = some ⟨before, .load y⟩ ∧
        (∀ k, k ≤ y.toNat → after.registers.value k = cpu.registers.value k) ∧
        (∀ k, y.toNat < k → k < 16 → after.registers.value k = before.registers.value k) ∧
        after.index.toNat = start + y.toNat + 1 ∧ start + y.toNat + 1 ≤ 4096) ∧
    (∀ load x, cpu.executed? load = some ⟨cpu, .load x⟩ →
      let loaded := cpu.after load
      ∀ between save,
        let before := loaded.run between
        (∀ k, k ≤ x.toNat → before.registers.value k = loaded.registers.value k) →
        before.memory = loaded.memory → before.index = cpu.index →
        before.peek = .ok (some (.store x)) →
        (∀ address, (before.outcome save).result ≠ .error (.fontOverwrite address)) →
        before.executed? save = some ⟨before, .store x⟩ ∧
        (before.after save).memory = cpu.memory) := by
  refine ⟨?_, ?_⟩
  · intro save x hstore start saved
    have hsave := (executes_of_executed? hstore).2
    have hroom : start + (x.toNat + 1) ≤ 4096 := hsave.store_le
    refine ⟨⟨hsave.index ▸ toNat_indexBehind hsave.store_le, hroom⟩, ?_⟩
    intro between load y before after huntouched hindex hle hpeek
    have hstart : before.index.toNat = start := congrArg UInt16.toNat hindex
    have hspan : before.index.toNat + (y.toNat + 1) ≤ Memory.size := by
      rw [hstart]
      exact Nat.le_trans (by omega) hroom
    obtain ⟨hload, hentry⟩ := executes_load load hpeek hspan
    refine ⟨hentry, ?_, fun k hlow hhigh => hload.kept_register hlow hhigh, ?_, by omega⟩
    · intro k hk
      have ha : start + k < Memory.size := Nat.lt_of_lt_of_le (by omega) hroom
      have hbyte : before.memory.bytes[start + k] = saved.memory.bytes[start + k] :=
        getElem_memory_of_untouched ha fun entry hmem =>
          huntouched entry hmem (start + k) (by omega) (by omega)
      have hloaded := hload.loaded_register hk (by rw [hstart]; exact ha)
      simp only [hstart] at hloaded
      rw [hloaded, hbyte]
      exact hsave.stored_register (by omega) ha
    · rw [← hstart]
      exact hload.index ▸ toNat_indexBehind hspan
  · intro load x hloading loaded between save before hregisters hmemory hindex hpeek hglyphs
    have hload := (executes_of_executed? hloading).2
    have hstart : before.index.toNat = cpu.index.toNat := congrArg UInt16.toNat hindex
    have hunchanged : before.memory = cpu.memory := hmemory.trans hload.memory
    have hhigh : Font.stop ≤ before.index.toNat := by
      refine Nat.le_of_not_lt fun hlow => hglyphs before.index ?_
      rw [outcome, result_eq_error_iff_of_peek _ _ hpeek]
      exact (Memory.writeFault?_eq_some_iff (Nat.succ_pos _)).mpr (.inl ⟨hlow, rfl⟩)
    obtain ⟨hsave, hentry⟩ := executes_store save hpeek hhigh (hstart ▸ hload.load_le)
    refine ⟨hentry, (hsave.memory_of_same ?_).trans hunchanged⟩
    intro k ha hk
    simp only [hstart] at ha
    rw [hregisters k hk, hload.loaded_register hk ha]
    simp only [hstart, hunchanged]

/-- The flag register is saved with the others, overwritten, and loaded again. -/
theorem flag_comes_back :
    let rom : Rom := ⟨[0x6F, 0x07, 0xA2, 0x10, 0xFF, 0x55, 0x6F, 0x00, 0xA2, 0x10, 0xFF, 0x65],
      by decide⟩
    let loan : Loan := ⟨Screen.blank, Keypad.empty⟩
    let cpu := (ofSource rom (Random.ofSeed 0)).run [loan, loan]
    let before := (cpu.after loan).run [loan, loan]
    cpu.registers.value 0xF = 7 ∧ before.registers.value 0xF = 0 ∧
      (before.after loan).registers.value 0xF = 7 := by
  intro rom loan cpu before
  obtain ⟨hpeek, hindex, hold⟩ : cpu.peek = .ok (some (.store 0xF)) ∧ cpu.index = 0x210 ∧
      cpu.registers.value 0xF = 7 := by decide +kernel
  obtain ⟨hpeek', hindex', hnew, hspans⟩ : before.peek = .ok (some (.load 0xF)) ∧
      before.index = 0x210 ∧ before.registers.value 0xF = 0 ∧
      ∀ entry ∈ (cpu.after loan).history [loan, loan], entry.instruction.span = 0 := by
    decide +kernel
  have hstore := (executes_store loan hpeek (by rw [hindex]; decide)
    (by rw [hindex]; decide)).2
  obtain ⟨-, hload⟩ := (stored_registers_can_be_loaded cpu).1 loan 0xF hstore
  have huntouched : ∀ entry ∈ (cpu.after loan).history [loan, loan], ∀ a,
      cpu.index.toNat ≤ a → a ≤ cpu.index.toNat + (0xF : UInt8).toNat →
      entry.storedAt? a = none := by
    intro entry hentry a _ _
    cases hbyte : entry.storedAt? a with
    | none => rfl
    | some byte =>
      have hrange := Executed.range_of_storedAt? hbyte
      rw [hspans entry hentry] at hrange
      omega
  obtain ⟨-, hback, -⟩ := hload [loan, loan] loan 0xF huntouched (hindex'.trans hindex.symm)
    (Nat.le_refl _) hpeek'
  exact ⟨hold, hnew, (hback 0xF (Nat.le_refl _)).trans hold⟩

end Chip8.Cpu
