/-!
# Hexadecimal numerals

A numeral is written with at least a given number of digits: a shorter one is
filled up with zeros on the left, a longer one keeps all of its digits. The
mark `0x` stands in front, in lower case whatever the case of the digits.
-/

namespace Chip8.Hex

/-- The digits of a number, most significant first and at least `width` of them. -/
def digits (width n : Nat) : List Char := (Nat.toDigits 16 n).leftpad width '0'

/-- A marked numeral with lower case digits. -/
def lower (width n : Nat) : String := "0x" ++ String.ofList (digits width n)

/-- A marked numeral with upper case digits. -/
def upper (width n : Nat) : String := "0x" ++ String.ofList ((digits width n).map Char.toUpper)

/-- The upper case digits alone, with neither mark nor filling. -/
def bare (n : Nat) : String := String.ofList ((digits 0 n).map Char.toUpper)

/-- Filling up never shortens a numeral below the width asked for. -/
theorem le_length_digits (width n : Nat) : width ≤ (digits width n).length := by
  simp only [digits, List.leftpad, List.length_append, List.length_replicate]
  omega

end Chip8.Hex
