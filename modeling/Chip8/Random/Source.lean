import Chip8.Random.Block

/-!
# The source of random numbers

A source is an endless stream of words and the number of words taken so far, so what
it gives next depends on nothing else. It does not matter to the processor where the
words come from. The stream of a program comes from a seed of 64 bits: it is stretched
to a key by a linear congruential generator whose states are scrambled by a shift and a
rotation, and the key gives the words, block after block without a gap.
-/

namespace Chip8

/-- A place in a stream of words. -/
structure Random where
  /-- The words of the stream, which never ends. -/
  words : Nat → UInt32
  /-- How many words have been taken. -/
  position : Nat

namespace Random

/-- The next state of the generator that stretches a seed. -/
def stretch (state : UInt64) : UInt64 := state * 6364136223846793005 + 11634580027462260723

/-- The key word that a state of that generator gives. -/
def scramble (state : UInt64) : UInt32 :=
  rotateRight ((((state >>> 18) ^^^ state) >>> 27).toUInt32) (state >>> 59).toUInt32

/-- The state after a number of steps from a seed. -/
def stretched (seed : UInt64) : Nat → UInt64
  | 0 => seed
  | n + 1 => stretch (stretched seed n)

/-- The key of a seed: the words given by the first eight states behind it. -/
def keyOfSeed (seed : UInt64) : Key := Vector.ofFn fun k => scramble (stretched seed (k.val + 1))

/-- The word at a given place in the stream of a key. -/
def wordAt (key : Key) (place : Nat) : UInt32 :=
  (Block.ofKey key (UInt64.ofNat (place / 16))).get ⟨place % 16, Nat.mod_lt _ (by decide)⟩

/-- The beginning of a stream. -/
def ofWords (words : Nat → UInt32) : Random := ⟨words, 0⟩

/-- The beginning of the stream of a seed. -/
def ofSeed (seed : UInt64) : Random := ofWords (wordAt (keyOfSeed seed))

/-- The byte that comes next: the low bits of the next word. -/
def byte (source : Random) : UInt8 := (source.words source.position).toUInt8

/-- The source behind its next word. -/
def advance (source : Random) : Random := { source with position := source.position + 1 }

end Random

end Chip8
