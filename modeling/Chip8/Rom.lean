import Chip8.File.Tree

/-!
# Program images

Addresses run from zero to `0xFFF`. Programs are placed, and started, at `0x200`;
what lies below belongs to the interpreter. A program image is a run of bytes that
fits between the address where programs start and the end of the memory. Reading one
fails if its file cannot be read or if the file holds too many bytes.
-/

namespace Chip8

/-- The number of bytes in memory, and the first address behind its end. -/
def Memory.size : Nat := 4096

/-- The address at which a program is placed and started. -/
def Memory.programStart : Nat := 0x200

/-- The largest number of bytes in a program image. -/
def Rom.maxSize : Nat := Memory.size - Memory.programStart

/-- A program image. -/
structure Rom where
  /-- The bytes, in the order of their addresses. -/
  bytes : List UInt8
  /-- The image fits into the memory. -/
  length_le : bytes.length ≤ Rom.maxSize
  deriving DecidableEq, Repr

/-- Why there is no program image. -/
inductive LoadError where
  /-- The file at `path` could not be read. -/
  | unreadable (path : String) (cause : File.ReadError)
  /-- There are `size` bytes, which is too many. -/
  | tooLarge (size : Nat)
  deriving DecidableEq, Repr

/-- The text that reports a failure. The cause of an unreadable file is not part of
it. -/
def LoadError.message : LoadError → String
  | .unreadable path _ => "could not read rom " ++ path
  | .tooLarge size =>
    "rom is too large (" ++ Nat.repr size ++ " bytes), max size is " ++ Nat.repr Rom.maxSize
      ++ " bytes"

namespace Rom

/-- An image without any byte. -/
def empty : Rom := ⟨[], Nat.zero_le _⟩

/-- The number of bytes in an image. -/
def size (rom : Rom) : Nat := rom.bytes.length

/-- The image that consists of given bytes. -/
def ofBytes (bytes : List UInt8) : Except LoadError Rom :=
  if h : bytes.length ≤ maxSize then .ok ⟨bytes, h⟩ else .error (.tooLarge bytes.length)

/-- The conversion of lists of bytes into images: no other image is made of them. -/
def ofList (bytes : List UInt8) : Except LoadError Rom := ofBytes bytes

/-- The image in what reading the file at `path` gave. -/
def ofContents (path : String) : Except File.ReadError (List UInt8) → Except LoadError Rom
  | .ok bytes => ofBytes bytes
  | .error cause => .error (.unreadable path cause)

/-- The image in the file at `path` of a tree. -/
def load (tree : File.Tree) (path : String) : Except LoadError Rom :=
  ofContents path (tree.read path)

/-- An image is made of the bytes given, just when they are not too many. -/
theorem ofBytes_eq_ok_iff {bytes : List UInt8} {rom : Rom} :
    ofBytes bytes = .ok rom ↔ rom.bytes = bytes := by
  unfold ofBytes
  constructor
  · intro h
    split at h <;> cases h
    rfl
  · rintro rfl
    simp [rom.length_le]

end Rom

end Chip8
