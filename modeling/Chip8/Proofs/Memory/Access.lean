import Chip8.Memory

/-!
# Which accesses to memory are refused

Whether an access is refused depends on where its range starts and how long it is, and
on nothing that memory holds. An access that is not refused is made in full.
-/

namespace Chip8.Memory

/-- The fault of reading a range, if there is one. -/
def readFault? (start : UInt16) (length : Nat) : Option Fault :=
  if start.toNat + length ≤ size then none else some (rangeFault start)

/-- The fault of storing to a range, if there is one. -/
def writeFault? (start : UInt16) (length : Nat) : Option Fault :=
  if 0 < length ∧ start.toNat < Font.stop then some (.fontOverwrite start)
  else readFault? start length

theorem readFault?_eq_none_iff {start : UInt16} {length : Nat} :
    readFault? start length = none ↔ start.toNat + length ≤ size := by
  simp [readFault?]

/-- A store is made just when its range lies between the glyphs and the end. -/
theorem writeFault?_eq_none_iff {start : UInt16} {length : Nat} (hpos : 0 < length) :
    writeFault? start length = none ↔ Font.stop ≤ start.toNat ∧ start.toNat + length ≤ size := by
  unfold writeFault?
  split
  · simp only [reduceCtorEq, false_iff]
    omega
  · rw [readFault?_eq_none_iff]
    omega

/-- A range that ends behind the end is reported by the first address behind the end. -/
theorem readFault?_eq_some_iff {start : UInt16} {length : Nat} {fault : Fault} :
    readFault? start length = some fault ↔
      size < start.toNat + length ∧ fault = rangeFault start := by
  unfold readFault?
  split <;> simp [eq_comm] <;> omega

/-- A store that begins among the glyphs is reported before its end is looked at. -/
theorem writeFault?_eq_some_iff {start : UInt16} {length : Nat} {fault : Fault}
    (hpos : 0 < length) :
    writeFault? start length = some fault ↔
      start.toNat < Font.stop ∧ fault = .fontOverwrite start ∨
      Font.stop ≤ start.toNat ∧ size < start.toNat + length ∧ fault = rangeFault start := by
  unfold writeFault?
  by_cases hlow : start.toNat < Font.stop
  · simp [hlow, hpos, Nat.not_le.mpr hlow, eq_comm]
  · simp [hlow, Nat.not_lt.mp hlow, readFault?_eq_some_iff]

theorem read_eq_error_iff {memory : Memory} {start : UInt16} {length : Nat} {fault : Fault} :
    memory.read start length = .error fault ↔ readFault? start length = some fault := by
  unfold read readFault?
  split <;> simp

/-- A word is read like a range of two bytes. -/
theorem word_eq_error_iff {memory : Memory} {address : UInt16} {fault : Fault} :
    memory.word address = .error fault ↔ readFault? address 2 = some fault := by
  unfold word readFault?
  split <;> simp

theorem write_eq_error_iff {memory : Memory} {start : UInt16} {bytes : List UInt8}
    {fault : Fault} :
    memory.write start bytes = .error fault ↔ writeFault? start bytes.length = some fault := by
  unfold write writeFault? readFault?
  simp only [List.length_pos_iff]
  split
  · simp
  · split <;> simp

/-- Every address of the memory has a byte. -/
theorem byte_of_lt {address : UInt16} (memory : Memory) (h : address.toNat < size) :
    memory.byte address = .ok memory.bytes[address.toNat] := by
  rw [byte, Vector.getElem?_eq_getElem h]

/-- A store that may be made puts its bytes into their places. -/
theorem write_of_writeFault? {start : UInt16} {bytes : List UInt8} (memory : Memory)
    (h : writeFault? start bytes.length = none) :
    memory.write start bytes = .ok (memory.overwrite start.toNat bytes) := by
  cases hwrite : memory.write start bytes with
  | error fault => rw [write_eq_error_iff, h] at hwrite; cases hwrite
  | ok next =>
    unfold write at hwrite
    split at hwrite
    · cases hwrite
    · split at hwrite
      · exact hwrite.symm
      · cases hwrite

/-! ## Words -/

/-- The number that two bytes spell, the high one first; behind the end there are zeros. -/
def wordAt (memory : Memory) (a : Nat) : Nat :=
  256 * (memory.bytes[a]?.getD 0).toNat + (memory.bytes[a + 1]?.getD 0).toNat

private theorem toNat_join (high low : UInt8) :
    (high.toUInt16 <<< 8 ||| low.toUInt16).toNat = 256 * high.toNat + low.toNat := by
  have hhigh := high.toNat_lt
  have hlow := low.toNat_lt
  have hshift : high.toNat <<< 8 < 2 ^ 16 := by
    rw [Nat.shiftLeft_eq]
    omega
  rw [UInt16.toNat_or, UInt16.toNat_shiftLeft, UInt8.toNat_toUInt16, UInt8.toNat_toUInt16]
  change high.toNat <<< 8 % 2 ^ 16 ||| low.toNat = _
  rw [Nat.mod_eq_of_lt hshift, ← Nat.shiftLeft_add_eq_or_of_lt hlow, Nat.shiftLeft_eq,
    Nat.mul_comm]

/-- A word inside the memory is the number that its two bytes spell. -/
theorem word_eq_ok_iff {memory : Memory} {address word : UInt16} :
    memory.word address = .ok word ↔
      address.toNat + 2 ≤ size ∧ word.toNat = memory.wordAt address.toNat := by
  unfold Memory.word wordAt
  split
  next h =>
    rw [Except.ok.injEq, ← UInt16.toNat_inj, toNat_join, Vector.getElem?_eq_getElem (by omega),
      Vector.getElem?_eq_getElem (by omega)]
    simp only [Option.getD_some, h, true_and, eq_comm]
  next h => simp [h]

end Chip8.Memory
