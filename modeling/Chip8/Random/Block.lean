/-!
# The ChaCha block function

A block is sixteen words. It starts from four fixed words, eight words of key, the
number of the block in two words and two zeros, goes through eight rounds of
additions, exclusive disjunctions and rotations, and is added to its start. The
rounds come in pairs: one over the columns of the square of words, one over its
diagonals.
-/

namespace Chip8.Random

/-- Sixteen words, read as a square of four rows. -/
abbrev Block := Vector UInt32 16

/-- Eight words of key. -/
abbrev Key := Vector UInt32 8

/-- Turn a word to the left by fewer than 32 places. -/
def rotateLeft (word places : UInt32) : UInt32 := word <<< places ||| word >>> (32 - places)

/-- Turn a word to the right by fewer than 32 places. -/
def rotateRight (word places : UInt32) : UInt32 := word >>> places ||| word <<< (32 - places)

/-- Mix four words. -/
def quarterRound (a b c d : UInt32) : UInt32 × UInt32 × UInt32 × UInt32 :=
  let a := a + b
  let d := rotateLeft (d ^^^ a) 16
  let c := c + d
  let b := rotateLeft (b ^^^ c) 12
  let a := a + b
  let d := rotateLeft (d ^^^ a) 8
  let c := c + d
  let b := rotateLeft (b ^^^ c) 7
  (a, b, c, d)

namespace Block

/-- Mix the words at four places of a block. -/
def mix (block : Block) (i j k l : Fin 16) : Block :=
  let (a, b, c, d) := quarterRound block[i] block[j] block[k] block[l]
  (((block.set i a).set j b).set k c).set l d

/-- Mix the four columns. -/
def columnRound (block : Block) : Block :=
  (((block.mix 0 4 8 12).mix 1 5 9 13).mix 2 6 10 14).mix 3 7 11 15

/-- Mix the four diagonals. -/
def diagonalRound (block : Block) : Block :=
  (((block.mix 0 5 10 15).mix 1 6 11 12).mix 2 7 8 13).mix 3 4 9 14

/-- A round over the columns and one over the diagonals. -/
def doubleRound (block : Block) : Block := block.columnRound.diagonalRound

/-- The block with a given number, before any round. -/
def start (key : Key) (number : UInt64) : Block :=
  (#v[0x61707865, 0x3320646e, 0x79622d32, 0x6b206574] : Vector UInt32 4) ++ key
    ++ (#v[number.toUInt32, (number >>> 32).toUInt32, 0, 0] : Vector UInt32 4)

/-- The block with a given number, after eight rounds. -/
def ofKey (key : Key) (number : UInt64) : Block :=
  let first := start key number
  first.zipWith (· + ·) first.doubleRound.doubleRound.doubleRound.doubleRound

end Block

end Chip8.Random
