/-!
# The keyboard layout

The left-hand side of a keyboard stands for the keypad: four rows of four keys, the
digits from `1` to `4` and the letters below them.
-/

namespace Chip8.Keyboard

/-- A key of a keyboard. -/
inductive Key where
  /-- A key of the row of digits. -/
  | digit (value : Nat)
  /-- A key with a letter, named in upper case. -/
  | letter (name : Char)
  /-- Any other key, by its label. -/
  | labelled (label : String)
  deriving DecidableEq, Repr

/-- The keys that stand for a key of the keypad, row by row, with that key's number. -/
def layout : List (Key × UInt8) :=
  [(.digit 1, 0x1), (.digit 2, 0x2), (.digit 3, 0x3), (.digit 4, 0xC),
   (.letter 'Q', 0x4), (.letter 'W', 0x5), (.letter 'E', 0x6), (.letter 'R', 0xD),
   (.letter 'A', 0x7), (.letter 'S', 0x8), (.letter 'D', 0x9), (.letter 'F', 0xE),
   (.letter 'Z', 0xA), (.letter 'X', 0x0), (.letter 'C', 0xB), (.letter 'V', 0xF)]

/-- The number of the keypad's key that a key stands for, if it stands for one. -/
def symbol? (key : Key) : Option UInt8 := layout.lookup key

/-- Every key of the keypad is stood for by exactly one key of the keyboard. -/
theorem layout_perm : (layout.map Prod.snd).Perm ((List.range 16).map UInt8.ofNat) := by
  decide

end Chip8.Keyboard
