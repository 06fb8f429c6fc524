/-!
# Similarity of words

The Jaro measure compares two words by their common letters. A letter of the first
word is paired with the first free equal letter of the second whose place is near:
off by less than half the longer word. The measure is the mean of three shares: of
the first word that is paired, of the second, and of the pairs that are not out of
order. Two pairs that cross count as one out of order.
-/

namespace Chip8.Similarity

/-- How far apart two places may be for letters to be paired, in words of two given
lengths. -/
def reach (first second : Nat) : Nat := max first second / 2 - 1

/-- Pair the letter at a given place with the first free equal letter in reach: the
second word, counted from a given place, with that letter taken out. `none` if there
is no such letter. -/
def takeLetter (reach place : Nat) (letter : Char) : Nat → List (Option Char) → Option (List (Option Char))
  | _, [] => none
  | k, free :: rest =>
    if free = some letter ∧ place ≤ k + reach ∧ k ≤ place + reach then some (none :: rest)
    else (takeLetter reach place letter (k + 1) rest).map (free :: ·)

/-- The paired letters of the first word in order, and what is left of the second. -/
def pairLetters (reach : Nat) : Nat → List Char → List (Option Char) → List Char × List (Option Char)
  | _, [], free => ([], free)
  | place, letter :: rest, free =>
    match takeLetter reach place letter 0 free with
    | some free =>
      let (paired, left) := pairLetters reach (place + 1) rest free
      (letter :: paired, left)
    | none => pairLetters reach (place + 1) rest free

/-- The letters of a word that are taken out in what is left of it. -/
def taken (word : List Char) (left : List (Option Char)) : List Char :=
  (word.zip left).filterMap fun (letter, free) => if free.isNone then some letter else none

/-- Whether two words have letters in common and their Jaro measure is at least seven
tenths. -/
def isClose (first second : List Char) : Bool :=
  let m := first.length
  let n := second.length
  let (paired, left) := pairLetters (reach m n) 0 first (second.map some)
  let p := paired.length
  let crossed := ((paired.zip (taken second left)).filter fun (a, b) => a ≠ b).length / 2
  0 < p && 21 * (p * m * n) ≤ 10 * (p * p * n + p * p * m + (p - crossed) * m * n)

end Chip8.Similarity
