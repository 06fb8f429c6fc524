/-!
# Terminal controls

A terminal takes some characters of a text as commands: the control characters, and
sequences of characters that the escape character opens. Stripping a text leaves what
a terminal would show. Tabs, line ends and form feeds count as shown. One of them in
the middle of a sequence suspends it, unless the sequence is a string: what comes
behind is shown until a control character takes the sequence up again.
-/

namespace Chip8.Terminal

/-- Whether a character is an ASCII control character. -/
def isControl (c : Char) : Bool := c < ' ' || c = '\x7f'

/-- Whether a character is a tab, a line end or a form feed. -/
def isBlank (c : Char) : Bool := c = '\t' || c = '\n' || c = '\x0c' || c = '\r'

/-- Whether a character lies outside of ASCII. -/
def isWide (c : Char) : Bool := '\x7f' < c

/-- Whether a character is shown outside of sequences. -/
def isShown (c : Char) : Bool := !isControl c || isBlank c

/-- A sequence that has been opened, by what has been read of it. -/
inductive Sequence where
  /-- The escape character. -/
  | escape
  /-- The escape character and signs that announce one more. -/
  | escapeSign
  /-- The opening of a control function and some of its parameters. -/
  | function
  /-- The opening of a device control. -/
  | device
  /-- The opening of a device control and some of its parameters. -/
  | deviceParameter
  /-- The opening of a device control and signs behind its parameters. -/
  | deviceSign
  /-- Some of a string that the string terminator closes. -/
  | string
  /-- Some of a string that the bell closes. -/
  | command
  deriving DecidableEq, Repr

/-- Where the reading of a text stands. -/
inductive Reading where
  /-- Outside of sequences, or in text that suspends one. -/
  | text (suspended : Option Sequence)
  /-- Inside a sequence. -/
  | within (sequence : Sequence)
  deriving DecidableEq, Repr

namespace Sequence

/-- Whether a tab, a line end or a form feed suspends a sequence. -/
def suspendable : Sequence → Bool
  | escape | escapeSign | function => true
  | device | deviceParameter | deviceSign | string | command => false

/-- What follows on a visible ASCII character in a sequence. -/
def follow (c : Char) : Sequence → Reading
  | escape =>
    if c < '0' then .within escapeSign
    else if c = '[' then .within function
    else if c = ']' then .within command
    else if c = 'P' then .within device
    else if c = 'X' ∨ c = '^' ∨ c = '_' then .within string
    else .text none
  | escapeSign => if c < '0' then .within escapeSign else .text none
  | function => if c < '@' then .within function else .text none
  | device =>
    if c < '0' then .within deviceSign
    else if c < '@' then .within deviceParameter
    else .within string
  | deviceParameter =>
    if c < '0' then .within deviceSign
    else if c < '<' then .within deviceParameter
    else .within string
  | deviceSign => if c < '0' then .within deviceSign else .within string
  | string => .within string
  | command => .within command

/-- Whether a control character or a character outside of ASCII closes a sequence. The
string terminator is a byte, which may be one of several that encode a character. -/
def closedBy (c : Char) : Sequence → Bool
  | string => isWide c && (String.utf8EncodeChar c).contains 0x9C
  | command => c = '\x07'
  | _ => false

/-- What follows on a character that does not suspend a sequence. -/
def next (sequence : Sequence) (c : Char) : Reading :=
  if isControl c || isWide c then
    if sequence.closedBy c then .text none else .within sequence
  else sequence.follow c

end Sequence

namespace Reading

/-- What follows on a control character in a text. -/
def resume : Option Sequence → Reading
  | none => .text none
  | some sequence => .within sequence

/-- Read one character: whether it is shown, and where the reading stands behind it.
The escape character opens a sequence everywhere, and two characters give any sequence
up. -/
def next (reading : Reading) (c : Char) : Bool × Reading :=
  if c = '\x1b' then (false, .within .escape)
  else if c = '\x18' ∨ c = '\x1a' then (false, .text none)
  else
    match reading with
    | .text suspended =>
      if isShown c then (true, .text (if isWide c then none else suspended))
      else (false, resume suspended)
    | .within sequence =>
      if isBlank c && sequence.suspendable then (true, .text (some sequence))
      else (false, sequence.next c)

/-- What is shown of some characters. -/
def strip : Reading → List Char → List Char
  | _, [] => []
  | reading, c :: rest =>
    let (shown, reading) := reading.next c
    if shown then c :: reading.strip rest else reading.strip rest

end Reading

/-- What a terminal shows of a text. -/
def strip (text : String) : String :=
  String.ofList ((Reading.text none).strip text.toList)

/-! ## What is shown -/

/-- Only characters that are shown outside of sequences are shown at all. -/
theorem isShown_of_next {reading : Reading} {c : Char} (h : (reading.next c).1 = true) :
    isShown c = true := by
  unfold Reading.next at h
  split at h
  · simp at h
  split at h
  · simp at h
  split at h
  · split at h
    · assumption
    · simp at h
  · split at h
    · next hb =>
      rw [Bool.and_eq_true] at hb
      simp [isShown, hb.1]
    · simp at h

/-- What is left of a text holds no controls. -/
theorem isShown_of_mem_strip {reading : Reading} {cs : List Char} {c : Char}
    (h : c ∈ reading.strip cs) : isShown c = true := by
  induction cs generalizing reading with
  | nil => simp [Reading.strip] at h
  | cons d rest ih =>
    simp only [Reading.strip] at h
    split at h
    · next hd =>
      rcases List.mem_cons.mp h with rfl | h
      · exact isShown_of_next hd
      · exact ih h
    · exact ih h

/-- A text without controls is left as it is. -/
theorem strip_eq_self {cs : List Char} (h : ∀ c ∈ cs, isShown c = true) :
    (Reading.text none).strip cs = cs := by
  induction cs with
  | nil => rfl
  | cons c rest ih =>
    have hc := h c List.mem_cons_self
    have hnext : (Reading.text none).next c = (true, .text none) := by
      have hesc : c ≠ '\x1b' := by rintro rfl; revert hc; decide
      have hcan : c ≠ '\x18' := by rintro rfl; revert hc; decide
      have hsub : c ≠ '\x1a' := by rintro rfl; revert hc; decide
      simp [Reading.next, hesc, hcan, hsub, hc]
    simp only [Reading.strip, hnext, if_true]
    rw [ih fun d hd => h d (List.mem_cons_of_mem c hd)]

end Chip8.Terminal
