import Chip8.Cpu.Run
import Chip8.Proofs.Memory.Access

/-!
# Loading a program

An image fits between the address where programs start and the end of the memory, and the
glyphs lie below that address. So loading an image is never refused, however long it is, and
what the memory holds afterwards is known at every address. Behind the image it holds
zeros, which is why zeros at the end of an image make no difference.
-/

namespace Chip8

namespace Memory

/-- The byte at an address when a program starts: a row of a glyph or a byte of the image,
and zero where there is neither. -/
def initialByte (rom : Rom) (a : Nat) : UInt8 :=
  if a < programStart then Font.glyphs[a]?.getD 0 else rom.bytes[a - programStart]?.getD 0

/-- An image ends inside the memory. -/
theorem programStart_add_length_le (rom : Rom) : programStart + rom.bytes.length ≤ size := by
  have hle := rom.length_le
  have hsize : programStart + Rom.maxSize = size := rfl
  omega

/-- Loading an image is not refused. -/
theorem load_withGlyphs (rom : Rom) : withGlyphs.load rom = .ok (ofRom rom) := by
  have hstart : (UInt16.ofNat programStart).toNat = programStart := rfl
  have hroom : writeFault? (UInt16.ofNat programStart) rom.bytes.length = none := by
    have habove : ¬programStart < Font.stop := by decide
    rw [writeFault?, hstart, if_neg fun h => habove h.2, readFault?_eq_none_iff, hstart]
    exact programStart_add_length_le rom
  rw [load, write_of_writeFault? _ hroom, hstart]
  rfl

/-- The memory with a program in its place is known at every address. -/
theorem getElem_ofRom (rom : Rom) (a : Nat) (ha : a < size) :
    (ofRom rom).bytes[a] = initialByte rom a := by
  have hglyphs : Font.glyphs.length ≤ programStart := by decide
  rw [ofRom, getElem_overwrite, getElem_overwrite, initialByte]
  by_cases hlow : a < programStart
  · rw [dif_neg fun h => Nat.not_lt.mpr h.1 hlow, if_pos hlow]
    by_cases hglyph : a < Font.glyphs.length
    · rw [dif_pos ⟨Nat.zero_le a, hglyph⟩, List.getElem?_eq_getElem hglyph]
      rfl
    · rw [dif_neg fun h => hglyph h.2, List.getElem?_eq_none (Nat.not_lt.mp hglyph)]
      exact Vector.getElem_replicate ha
  · rw [if_neg hlow]
    by_cases himage : a - programStart < rom.bytes.length
    · rw [dif_pos ⟨Nat.not_lt.mp hlow, himage⟩, List.getElem?_eq_getElem himage,
        Option.getD_some]
    · have hglyph : ¬a < Font.glyphs.length := by omega
      rw [dif_neg fun h => himage h.2, dif_neg fun h => hglyph h.2,
        List.getElem?_eq_none (Nat.not_lt.mp himage)]
      exact Vector.getElem_replicate ha

/-- Every address of the memory has its initial byte, and no other address has one. -/
theorem byte_ofRom (rom : Rom) (address : UInt16) :
    (ofRom rom).byte address =
      if address.toNat < size then .ok (initialByte rom address.toNat)
      else .error (.memoryOutOfBounds address.toNat) := by
  split
  · next h => rw [byte_of_lt _ h, getElem_ofRom]
  · next h => rw [byte, Vector.getElem?_eq_none (Nat.not_lt.mp h)]

/-! ## The four regions -/

theorem getElem?_glyphs_eq_initialByte (rom : Rom) {a : Nat} (h : a < Font.stop) :
    Font.glyphs[a]? = some (initialByte rom a) := by
  have hbelow : a < programStart := Nat.lt_trans h (by decide)
  have hglyph : a < Font.glyphs.length := h
  rw [initialByte, if_pos hbelow, List.getElem?_eq_getElem hglyph, Option.getD_some]

theorem initialByte_of_between (rom : Rom) {a : Nat} (habove : Font.stop ≤ a)
    (hbelow : a < programStart) : initialByte rom a = 0 := by
  have hglyphs : Font.glyphs.length ≤ a := habove
  rw [initialByte, if_pos hbelow, List.getElem?_eq_none hglyphs, Option.getD_none]

theorem getElem?_bytes_eq_initialByte {rom : Rom} {k : Nat} (h : k < rom.bytes.length) :
    rom.bytes[k]? = some (initialByte rom (programStart + k)) := by
  rw [initialByte, if_neg (Nat.not_lt.mpr (Nat.le_add_right _ _)), Nat.add_sub_cancel_left,
    List.getElem?_eq_getElem h, Option.getD_some]

theorem initialByte_of_behind {rom : Rom} {a : Nat} (h : programStart + rom.bytes.length ≤ a) :
    initialByte rom a = 0 := by
  have hbehind : rom.bytes.length ≤ a - programStart := by omega
  rw [initialByte, if_neg (by omega), List.getElem?_eq_none hbehind, Option.getD_none]

/-! ## Zeros at the end of an image -/

private theorem getD_append_zeros (bytes : List UInt8) (count k : Nat) :
    (bytes ++ List.replicate count 0)[k]?.getD 0 = bytes[k]?.getD 0 := by
  by_cases h : k < bytes.length
  · rw [List.getElem?_append_left h]
  · have hbehind := Nat.not_lt.mp h
    rw [List.getElem?_append_right hbehind, List.getElem?_eq_none hbehind,
      List.getElem?_replicate]
    split <;> rfl

/-- Images that differ in the zeros at their ends only are the same to the memory. -/
theorem ofRom_eq_of_append_zeros {rom other : Rom} {m n : Nat}
    (h : rom.bytes ++ List.replicate m 0 = other.bytes ++ List.replicate n 0) :
    ofRom rom = ofRom other := by
  have himage : ∀ k : Nat, rom.bytes[k]?.getD 0 = other.bytes[k]?.getD 0 := by
    intro k
    rw [← getD_append_zeros rom.bytes m, h, getD_append_zeros]
  have hbytes : (ofRom rom).bytes = (ofRom other).bytes := by
    apply Vector.ext
    intro a ha
    rw [getElem_ofRom, getElem_ofRom, initialByte, initialByte, himage]
  exact congrArg Memory.mk hbytes

end Memory

/-- There are images of all bytes that are not too many, and of no others. -/
theorem Rom.ofBytes_of_le {bytes : List UInt8} (h : bytes.length ≤ Rom.maxSize) :
    Rom.ofBytes bytes = .ok ⟨bytes, h⟩ := dif_pos h

theorem Rom.ofBytes_of_lt {bytes : List UInt8} (h : Rom.maxSize < bytes.length) :
    Rom.ofBytes bytes = .error (.tooLarge bytes.length) := dif_neg (Nat.not_le.mpr h)

namespace Cpu

/-- There is a processor for every image. -/
theorem create_eq_ok (rom : Rom) (random : Random) :
    create rom random = .ok (ofSource rom random) := by
  rw [create, Memory.load_withGlyphs]
  rfl

/-- Images that differ in the zeros at their ends only give the same processor. -/
theorem ofSource_eq_of_append_zeros {rom other : Rom} {m n : Nat}
    (h : rom.bytes ++ List.replicate m 0 = other.bytes ++ List.replicate n 0)
    (random : Random) : ofSource other random = ofSource rom random := by
  rw [ofSource, ofSource, Memory.ofRom_eq_of_append_zeros h]

/-- Bytes are made into an image unless they are more than 3584, in either way to do so, and
the image has exactly these bytes. For every image, the one without a byte included, there is
a processor: its counter is at `0x200`, everything else but its memory is zero, and the
memory holds the glyphs, zeros, the image and zeros again, up to its end. Another image that
differs in the zeros at its end only gives a processor that does the same in every run. -/
theorem image_in_place_and_nothing_else (bytes : List UInt8) (rom : Rom) (random : Random) :
    (Rom.ofList bytes = Rom.ofBytes bytes ∧
      (bytes.length ≤ 3584 → ∃ image, Rom.ofBytes bytes = .ok image ∧ image.bytes = bytes) ∧
      (3584 < bytes.length → Rom.ofBytes bytes = .error (.tooLarge bytes.length)) ∧
      Rom.ofBytes [] = .ok Rom.empty) ∧
    ∃ cpu, create rom random = .ok cpu ∧
      cpu.counter = 0x200 ∧ cpu.stack = ⟨Vector.replicate 16 0, 0⟩ ∧
      (∀ x, cpu.registers.get x = 0) ∧ cpu.index = 0 ∧ cpu.timers = ⟨0, 0⟩ ∧
      (∀ address : UInt16,
        let a := address.toNat
        let found := cpu.memory.byte address
        (a < 0x50 → ∃ row, Font.glyphs[a]? = some row ∧ found = .ok row) ∧
        (0x50 ≤ a → a < 0x200 → found = .ok 0) ∧
        (∀ k, a = 0x200 + k → k < rom.bytes.length →
          ∃ byte, rom.bytes[k]? = some byte ∧ found = .ok byte) ∧
        (0x200 + rom.bytes.length ≤ a → a < 0x1000 → found = .ok 0) ∧
        (0x1000 ≤ a → found = .error (.memoryOutOfBounds a))) ∧
      ∀ other m n, rom.bytes ++ List.replicate m 0 = other.bytes ++ List.replicate n 0 →
        ∃ twin, create other random = .ok twin ∧
          ∀ loans, twin.outcomes loans = cpu.outcomes loans ∧ twin.run loans = cpu.run loans := by
  refine ⟨⟨rfl, ?_, Rom.ofBytes_of_lt, rfl⟩, ofSource rom random, create_eq_ok rom random,
    rfl, rfl, ?_, rfl, rfl, ?_, ?_⟩
  · intro hfits
    exact ⟨⟨bytes, hfits⟩, Rom.ofBytes_of_le hfits, rfl⟩
  · intro x
    exact Vector.getElem_replicate (Registers.index x).isLt
  · intro address a found
    have hend : 0x200 + rom.bytes.length ≤ 0x1000 := Memory.programStart_add_length_le rom
    have hfound : a < 0x1000 → found = .ok (Memory.initialByte rom a) := by
      intro h
      exact (Memory.byte_ofRom rom address).trans (if_pos h)
    refine ⟨?_, ?_, ?_, ?_, ?_⟩
    · intro h
      exact ⟨_, Memory.getElem?_glyphs_eq_initialByte rom h, hfound (by omega)⟩
    · intro habove hbelow
      rw [hfound (by omega), Memory.initialByte_of_between rom habove hbelow]
    · intro k hk himage
      rw [hfound (by omega), hk]
      exact ⟨_, Memory.getElem?_bytes_eq_initialByte himage, rfl⟩
    · intro hbehind hbelow
      rw [hfound hbelow, Memory.initialByte_of_behind hbehind]
    · intro h
      exact (Memory.byte_ofRom rom address).trans (if_neg (Nat.not_lt.mpr h))
  · intro other m n hzeros
    refine ⟨ofSource other random, create_eq_ok other random, ?_⟩
    rw [ofSource_eq_of_append_zeros hzeros]
    exact fun loans => ⟨rfl, rfl⟩

end Cpu

end Chip8
