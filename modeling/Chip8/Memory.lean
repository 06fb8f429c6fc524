import Chip8.Fault
import Chip8.Font
import Chip8.Rom

/-!
# The memory

Memory is 4096 bytes: the glyphs at the bottom, then a free region, then from
`0x200` on the program. Words are stored with the high byte first. An access to a
range is made as a whole or refused as a whole, and the refusal names the first
address of the range that lies behind the end. A store that would touch a glyph is
refused before its bounds are looked at.
-/

namespace Chip8

/-- The bytes of the memory. -/
structure Memory where
  /-- The bytes in the order of their addresses. -/
  bytes : Vector UInt8 Memory.size
  deriving DecidableEq, Repr

namespace Memory

/-- Put a list of bytes at consecutive addresses. What falls behind the end of the
memory is dropped. -/
def overwrite (memory : Memory) (start : Nat) : List UInt8 → Memory
  | [] => memory
  | byte :: rest => overwrite ⟨memory.bytes.setIfInBounds start byte⟩ (start + 1) rest

/-- All bytes are zero. -/
def zero : Memory := ⟨Vector.replicate size 0⟩

/-- The memory of a machine that is about to start a program: the glyphs and the
program in their places, and zeros elsewhere. -/
def ofRom (rom : Rom) : Memory :=
  (zero.overwrite Font.start Font.glyphs).overwrite programStart rom.bytes

/-- The fault of an access to a range that starts at a given address and ends
behind the end of the memory. -/
def rangeFault (start : UInt16) : Fault := .memoryOutOfBounds (max start.toNat size)

/-- The byte at an address. -/
def byte (memory : Memory) (address : UInt16) : Except Fault UInt8 :=
  match memory.bytes[address.toNat]? with
  | some byte => .ok byte
  | none => .error (.memoryOutOfBounds address.toNat)

/-- The word at an address and the one behind it, high byte first. -/
def word (memory : Memory) (address : UInt16) : Except Fault UInt16 :=
  if h : address.toNat + 2 ≤ size then
    .ok (memory.bytes[address.toNat].toUInt16 <<< 8 ||| memory.bytes[address.toNat + 1].toUInt16)
  else .error (rangeFault address)

/-- The bytes of a range. -/
def read (memory : Memory) (start : UInt16) (length : Nat) : Except Fault (List UInt8) :=
  if h : start.toNat + length ≤ size then
    .ok (List.ofFn fun k : Fin length => memory.bytes[start.toNat + k.val])
  else .error (rangeFault start)

/-- Store bytes at consecutive addresses. -/
def write (memory : Memory) (start : UInt16) (bytes : List UInt8) : Except Fault Memory :=
  if bytes ≠ [] ∧ start.toNat < Font.stop then .error (.fontOverwrite start)
  else if start.toNat + bytes.length ≤ size then .ok (memory.overwrite start.toNat bytes)
  else .error (rangeFault start)

/-- Nothing but the glyphs. -/
def withGlyphs : Memory := zero.overwrite Font.start Font.glyphs

/-- Store a program in its place. -/
def load (memory : Memory) (rom : Rom) : Except Fault Memory :=
  memory.write (UInt16.ofNat programStart) rom.bytes

/-- A range inside the memory is read byte by byte. -/
theorem read_of_le {start : UInt16} {length : Nat} (memory : Memory)
    (h : start.toNat + length ≤ size) :
    memory.read start length =
      .ok (List.ofFn fun k : Fin length => memory.bytes[start.toNat + k.val]) := dif_pos h

/-! ## What a store changes -/

/-- After a store an address holds the stored byte if there is one for it, and what
it held before otherwise. -/
theorem getElem_overwrite (memory : Memory) (start : Nat) (bytes : List UInt8) (a : Nat)
    (ha : a < size) :
    (memory.overwrite start bytes).bytes[a] =
      if h : start ≤ a ∧ a - start < bytes.length then bytes[a - start] else memory.bytes[a] := by
  induction bytes generalizing memory start with
  | nil => simp [overwrite]
  | cons byte rest ih =>
    rw [overwrite, ih]
    by_cases heq : a = start
    · subst heq
      rw [dif_neg fun h => Nat.not_succ_le_self a h.1]
      simp
    · by_cases hlt : a < start
      · simp [Nat.not_le.mpr hlt, show ¬start + 1 ≤ a by omega, Ne.symm heq]
      · have hsub : a - start = (a - (start + 1)) + 1 := by omega
        have hle : start ≤ a := by omega
        have hle' : start + 1 ≤ a := by omega
        simp [hle, hle', hsub, Ne.symm heq]

/-- The glyphs are in their places. -/
def HoldsGlyphs (memory : Memory) : Prop :=
  ∀ (a : Nat) (_ : a < Font.glyphs.length) (_ : a < size), memory.bytes[a] = Font.glyphs[a]

/-- A program starts with the glyphs in their places. -/
theorem holdsGlyphs_ofRom (rom : Rom) : (ofRom rom).HoldsGlyphs := by
  intro a hglyph ha
  have hlt : a < programStart := Nat.lt_trans hglyph (by decide)
  have hin : Font.start ≤ a ∧ a - Font.start < Font.glyphs.length := ⟨Nat.zero_le a, hglyph⟩
  rw [ofRom, getElem_overwrite, dif_neg fun hin => Nat.not_lt.mpr hin.1 hlt,
    getElem_overwrite, dif_pos hin]
  rfl

end Memory

end Chip8
