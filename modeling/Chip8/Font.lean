/-!
# The built-in glyphs

Sixteen pictures of the hexadecimal digits lie at the bottom of memory. Each is
five rows tall and four pixels wide, one byte per row with the picture in the
high half. Nothing may overwrite them once a machine is running.
-/

namespace Chip8.Font

/-- The address of the first glyph. -/
def start : Nat := 0x000

/-- How many rows, and so how many bytes, one glyph takes. -/
def glyphSize : Nat := 5

/-- The first address behind the last glyph. -/
def stop : Nat := start + 16 * glyphSize

/-- The pictures of `0` to `F`, in order. -/
def glyphs : List UInt8 :=
  [0xF0, 0x90, 0x90, 0x90, 0xF0,
   0x20, 0x60, 0x20, 0x20, 0x70,
   0xF0, 0x10, 0xF0, 0x80, 0xF0,
   0xF0, 0x10, 0xF0, 0x10, 0xF0,
   0x90, 0x90, 0xF0, 0x10, 0x10,
   0xF0, 0x80, 0xF0, 0x10, 0xF0,
   0xF0, 0x80, 0xF0, 0x90, 0xF0,
   0xF0, 0x10, 0x20, 0x40, 0x40,
   0xF0, 0x90, 0xF0, 0x90, 0xF0,
   0xF0, 0x90, 0xF0, 0x10, 0xF0,
   0xF0, 0x90, 0xF0, 0x90, 0x90,
   0xE0, 0x90, 0xE0, 0x90, 0xE0,
   0xF0, 0x80, 0x80, 0x80, 0xF0,
   0xE0, 0x90, 0x90, 0x90, 0xE0,
   0xF0, 0x80, 0xF0, 0x80, 0xF0,
   0xF0, 0x80, 0xF0, 0x80, 0x80]

/-- The glyphs fill the region between `start` and `stop` exactly. -/
theorem length_glyphs : start + glyphs.length = stop := rfl

/-- The address of the glyph with a given number. Numbers above `F` are taken as
they are and point behind the glyphs. -/
def address (number : UInt8) : UInt16 := UInt16.ofNat start + number.toUInt16 * UInt16.ofNat glyphSize

end Chip8.Font
