import Chip8.Text.Hex
import Mathlib.Algebra.Group.Nat.Defs
import Mathlib.Data.List.Basic

/-!
# Reading numerals

Digits are read from the left, in either case. Reading them gives back the number that was
written, whatever they were filled up with, so two numerals of one form are the same only
if they stand for the same number.
-/

namespace Chip8.Hex

/-- What a digit stands for, in either case. -/
def digitValue (c : Char) : Nat := "0123456789ABCDEF".toList.idxOf c.toUpper

/-- What digits stand for, the most significant one first. -/
def value (cs : List Char) : Nat := cs.foldl (fun n c => 0x10 * n + digitValue c) 0

variable {width n : Nat} {c : Char}

/-! ## One digit -/

theorem digitValue_digitChar {d : Nat} (h : d < 0x10) : digitValue (Nat.digitChar d) = d := by
  revert d
  decide

theorem digitValue_toUpper_digitChar {d : Nat} (h : d < 0x10) :
    digitValue (Nat.digitChar d).toUpper = d := by
  revert d
  decide

theorem isAlphanum_digitChar {d : Nat} (h : d < 0x10) :
    (Nat.digitChar d).isAlphanum = true ∧ (Nat.digitChar d).toUpper.isAlphanum = true := by
  revert d
  decide

/-- A digit of a number is one of sixteen. -/
theorem exists_digitChar_of_mem_toDigits (h : c ∈ Nat.toDigits 0x10 n) :
    ∃ d < 0x10, c = Nat.digitChar d := by
  induction n using Nat.strongRecOn with
  | ind n ih =>
    by_cases hn : n < 0x10
    · rw [Nat.toDigits_of_lt_base hn, List.mem_singleton] at h
      exact ⟨n, hn, h⟩
    · rw [Nat.toDigits_of_base_le (by decide) (by omega), List.mem_append,
        List.mem_singleton] at h
      rcases h with h | h
      · exact ih (n / 0x10) (by omega) h
      · exact ⟨n % 0x10, Nat.mod_lt _ (by decide), h⟩

/-- So is a digit that only fills a numeral up. -/
theorem exists_digitChar_of_mem_digits (h : c ∈ digits width n) :
    ∃ d < 0x10, c = Nat.digitChar d := by
  rcases List.mem_append.mp h with h | h
  · exact ⟨0, by decide, List.eq_of_mem_replicate h⟩
  · exact exists_digitChar_of_mem_toDigits h

/-! ## All digits of a numeral -/

theorem value_concat (cs : List Char) (c : Char) :
    value (cs ++ [c]) = 0x10 * value cs + digitValue c := by
  rw [value, List.foldl_append]
  rfl

theorem value_zeros_append (k : Nat) (cs : List Char) :
    value (List.replicate k '0' ++ cs) = value cs := by
  induction k with
  | zero => rfl
  | succ k ih => exact ih

theorem value_toDigits (n : Nat) : value (Nat.toDigits 0x10 n) = n := by
  induction n using Nat.strongRecOn with
  | ind n ih =>
    by_cases hn : n < 0x10
    · rw [Nat.toDigits_of_lt_base hn, ← List.nil_append [_], value_concat,
        digitValue_digitChar hn]
      exact Nat.zero_add n
    · have hlast : n % 0x10 < 0x10 := Nat.mod_lt _ (by decide)
      rw [Nat.toDigits_of_base_le (by decide) (by omega), value_concat, ih _ (by omega),
        digitValue_digitChar hlast]
      omega

/-- Reading gives back the number that was written. -/
theorem value_digits (width n : Nat) : value (digits width n) = n := by
  rw [digits, List.leftpad, value_zeros_append, value_toDigits]

/-- It does so in upper case. -/
theorem value_map_toUpper_digits (width n : Nat) :
    value ((digits width n).map Char.toUpper) = n := by
  have hcase : ∀ m, ∀ c ∈ digits width n,
      0x10 * m + digitValue c.toUpper = 0x10 * m + digitValue c := by
    intro m c hc
    obtain ⟨d, hd, rfl⟩ := exists_digitChar_of_mem_digits hc
    rw [digitValue_digitChar hd, digitValue_toUpper_digitChar hd]
  rw [value, List.foldl_map, List.foldl_ext _ _ _ hcase]
  exact value_digits width n

/-- A number that has room in a width is written with just as many digits. -/
theorem length_digits_of_lt (hwidth : 0 < width) (h : n < 0x10 ^ width) :
    (digits width n).length = width := by
  have hlength : (Nat.toDigits 0x10 n).length ≤ width :=
    (Nat.length_toDigits_le_iff (by decide) hwidth).mpr h
  simp only [digits, List.leftpad, List.length_append, List.length_replicate]
  omega

/-! ## Numerals as texts -/

theorem toList_lower (width n : Nat) : (lower width n).toList = '0' :: 'x' :: digits width n := by
  simp [lower]

theorem toList_bare (n : Nat) : (bare n).toList = (digits 0 n).map Char.toUpper := by
  simp [bare]

/-- There is no mark of punctuation and no blank in a numeral. -/
theorem isAlphanum_of_mem_lower (h : c ∈ (lower width n).toList) : c.isAlphanum = true := by
  rw [toList_lower] at h
  rcases List.mem_cons.mp h with rfl | h
  · decide
  rcases List.mem_cons.mp h with rfl | h
  · decide
  · obtain ⟨d, hd, rfl⟩ := exists_digitChar_of_mem_digits h
    exact (isAlphanum_digitChar hd).1

/-- Nor in one that is neither marked nor filled up. -/
theorem isAlphanum_of_mem_bare (h : c ∈ (bare n).toList) : c.isAlphanum = true := by
  rw [toList_bare] at h
  obtain ⟨digit, hdigit, rfl⟩ := List.mem_map.mp h
  obtain ⟨d, hd, rfl⟩ := exists_digitChar_of_mem_digits hdigit
  exact (isAlphanum_digitChar hd).2

end Chip8.Hex
