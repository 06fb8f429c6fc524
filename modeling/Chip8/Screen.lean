/-!
# The screen

The screen is a bitmap of 64 by 32 pixels whose edges are joined: a column counts
modulo the width and a row modulo the height, so every pair of numbers names a
pixel. A sprite is eight pixels wide, one byte per row with the leftmost pixel in
the highest bit, and is drawn by flipping the pixels under its set bits. The
screen remembers whether anything was written to it since it was last shown.
-/

namespace Chip8.Screen

/-- How many pixels lie side by side. -/
def width : Nat := 64

/-- How many rows of pixels there are. -/
def height : Nat := 32

/-- The number of pixels. -/
def area : Nat := width * height

/-- The place of a pixel in the bitmap, which is stored row by row. -/
abbrev Cell := Fin area

/-- The pixel in a given column and row, both counted round the edges. -/
def cell (x y : Nat) : Cell :=
  ⟨x % width + y % height * width, by
    have hx : x % width < 64 := Nat.mod_lt _ (by decide)
    have hy : y % height < 32 := Nat.mod_lt _ (by decide)
    simp only [width, height, area] at hx hy ⊢
    omega⟩

/-- The column of a pixel. -/
def column (c : Cell) : Nat := c.val % width

/-- The row of a pixel. -/
def row (c : Cell) : Nat := c.val / width

/-- A pixel is found again by its column and row. -/
theorem cell_column_row (c : Cell) : cell (column c) (row c) = c := by
  have hc := c.isLt
  apply Fin.ext
  simp only [cell, column, row, width, height, area] at hc ⊢
  omega

/-- The column of a pixel is within the edges. -/
theorem column_lt (c : Cell) : column c < width := Nat.mod_lt _ (by decide)

/-- So is its row. -/
theorem row_lt (c : Cell) : row c < height := Nat.div_lt_of_lt_mul c.isLt

/-- A column within the edges is found again from the pixel. -/
theorem column_cell {x y : Nat} (hx : x < width) : column (cell x y) = x := by
  simp only [column, cell, width] at hx ⊢
  omega

/-- So is a row. -/
theorem row_cell {x y : Nat} (hy : y < height) : row (cell x y) = y := by
  have hx : x % width < 64 := Nat.mod_lt _ (by decide)
  simp only [row, cell, width, height] at hy hx ⊢
  omega

/-- Two pairs of numbers name one pixel just when they agree modulo the width and the height. -/
theorem cell_eq_cell_iff {x y i j : Nat} :
    cell x y = cell i j ↔ x % width = i % width ∧ y % height = j % height := by
  have hx : x % width < 64 := Nat.mod_lt _ (by decide)
  have hi : i % width < 64 := Nat.mod_lt _ (by decide)
  simp only [cell, Fin.ext_iff, width] at hx hi ⊢
  omega

end Screen

/-- The pixels, and whether they were written to since they were last shown. -/
structure Screen where
  /-- For each pixel, whether it is lit. -/
  pixels : Vector Bool Screen.area
  /-- Whether there was a write since the screen was last shown. -/
  dirty : Bool
  deriving DecidableEq, Repr

namespace Screen

/-- A dark screen, which has not been shown yet. -/
def blank : Screen := ⟨Vector.replicate area false, true⟩

/-- Make every pixel dark. -/
def clear (_ : Screen) : Screen := blank

/-- Whether a pixel is lit. -/
def isLit (screen : Screen) (x y : Nat) : Bool := screen.pixels[cell x y]

/-- Make one pixel lit or dark. -/
def set (screen : Screen) (x y : Nat) (lit : Bool) : Screen :=
  ⟨screen.pixels.set (cell x y) lit, true⟩

/-- The lit pixels as pairs of a column and a row, row by row from the top left. -/
def litPixels (screen : Screen) : List (Nat × Nat) :=
  ((List.finRange area).filter fun c => screen.pixels[c]).map fun c => (column c, row c)

/-- How many pixels are lit. -/
def litCount (screen : Screen) : Nat := screen.pixels.count true

/-- The same picture, noted as shown. -/
def markShown (screen : Screen) : Screen := { screen with dirty := false }

/-- Whether the screen was written to since it was last shown, and the screen noted as shown. -/
def takeDirty (screen : Screen) : Bool × Screen := (screen.dirty, screen.markShown)

/-- A blank screen is dark everywhere. -/
@[simp] theorem isLit_blank (x y : Nat) : blank.isLit x y = false := by
  simp [isLit, blank]

/-- Setting a pixel decides it and no other pixel. -/
theorem isLit_set (screen : Screen) (x y i j : Nat) (lit : Bool) :
    (screen.set x y lit).isLit i j = if cell x y = cell i j then lit else screen.isLit i j := by
  simp only [isLit, set, Fin.getElem_fin, Vector.getElem_set, Fin.ext_iff]

/-! ## Sprites -/

/-- The columns under the set bits of one row of a sprite, counted from its left edge. -/
def litColumns (bits : UInt8) : List Nat :=
  (List.range 8).filter fun k => bits.toNat.testBit (7 - k)

/-- The pixels that a sprite covers when its top left corner is at a given pixel,
row by row from the top left. A pixel comes more than once only when the sprite is
taller than the screen. -/
def covered (x y : Nat) : List UInt8 → List Cell
  | [] => []
  | bits :: rows => (litColumns bits).map (fun k => cell (x + k) y) ++ covered x (y + 1) rows

/-- Flip a list of pixels one after another, and tell whether one of them was lit
when its turn came. -/
def flipAll (pixels : Vector Bool area) : List Cell → Bool × Vector Bool area
  | [] => (false, pixels)
  | c :: cells =>
    let lit := pixels[c]
    let (hit, flipped) := flipAll (pixels.set c (!lit)) cells
    (lit || hit, flipped)

/-- Draw a sprite with its top left corner at a given pixel. The answer tells
whether a lit pixel was made dark on the way. -/
def drawSprite (screen : Screen) (x y : Nat) (rows : List UInt8) : Bool × Screen :=
  let (hit, pixels) := flipAll screen.pixels (covered x y rows)
  (hit, ⟨pixels, true⟩)

/-! ## Flipping pixels one after another -/

section Flips

variable {pixels : Vector Bool area} {cells others : List Cell} {c d : Cell}

private theorem getElem_set_not (pixels : Vector Bool area) (c d : Cell) :
    (pixels.set d (!pixels[d]))[c] = if d = c then !pixels[c] else pixels[c] := by
  simp only [Fin.getElem_fin, Vector.getElem_set, Fin.ext_iff]
  split
  · next h => simp only [h]
  · rfl

/-- A pixel is flipped as often as it is listed. -/
theorem getElem_flipAll (pixels : Vector Bool area) (cells : List Cell) (c : Cell) :
    (flipAll pixels cells).2[c] = (pixels[c] ^^ decide (cells.count c % 2 = 1)) := by
  induction cells generalizing pixels with
  | nil => simp [flipAll]
  | cons d cells ih =>
    have hstep : (flipAll pixels (d :: cells)).2[c] =
        ((pixels.set d (!pixels[d]))[c] ^^ decide (cells.count c % 2 = 1)) := ih _
    rw [hstep, getElem_set_not]
    by_cases h : d = c
    · subst h
      have hparity : (cells.count d + 1) % 2 = 1 ↔ ¬cells.count d % 2 = 1 := by omega
      simp only [if_true, List.count_cons_self, hparity, decide_not, Bool.not_xor, Bool.xor_not]
    · simp [h]

/-- Some flip finds this pixel lit: it was lit at first, or it was flipped before. -/
def Struck (pixels : Vector Bool area) (cells : List Cell) (c : Cell) : Prop :=
  pixels[c] = true ∧ c ∈ cells ∨ 2 ≤ cells.count c

/-- The first flip finds its pixel as it was, and leaves it for the others the other way. -/
theorem struck_cons_self :
    Struck pixels (d :: cells) d ↔
      pixels[d] = true ∨ Struck (pixels.set d (!pixels[d])) cells d := by
  have hcount : 2 ≤ cells.count d + 1 ↔ d ∈ cells := by
    rw [← List.count_pos_iff]
    omega
  have hmem : 2 ≤ cells.count d → d ∈ cells := fun h => List.count_pos_iff.mp (by omega)
  rw [Struck, Struck, getElem_set_not, if_pos rfl, List.count_cons_self, hcount]
  cases pixels[d] with
  | true => simp
  | false => simpa using hmem

/-- It does not matter to the other pixels. -/
theorem struck_cons_of_ne (h : d ≠ c) :
    Struck pixels (d :: cells) c ↔ Struck (pixels.set d (!pixels[d])) cells c := by
  rw [Struck, Struck, getElem_set_not, if_neg h, List.count_cons_of_ne h, List.mem_cons,
    or_iff_right h.symm]

/-- Some flip finds its pixel lit just if some pixel is struck. -/
theorem flipAll_fst_iff : (flipAll pixels cells).1 = true ↔ ∃ c, Struck pixels cells c := by
  induction cells generalizing pixels with
  | nil => simp [flipAll, Struck]
  | cons d cells ih =>
    have hstep : (flipAll pixels (d :: cells)).1 = true ↔
        pixels[d] = true ∨ (flipAll (pixels.set d (!pixels[d])) cells).1 = true :=
      Bool.or_eq_true_iff
    rw [hstep, ih]
    constructor
    · rintro (hlit | ⟨c, hc⟩)
      · exact ⟨d, struck_cons_self.mpr (.inl hlit)⟩
      · by_cases h : d = c
        · subst h
          exact ⟨d, struck_cons_self.mpr (.inr hc)⟩
        · exact ⟨c, (struck_cons_of_ne h).mpr hc⟩
    · rintro ⟨c, hc⟩
      by_cases h : d = c
      · subst h
        exact (struck_cons_self.mp hc).imp_right fun hlater => ⟨d, hlater⟩
      · exact .inr ⟨c, (struck_cons_of_ne h).mp hc⟩

/-- Flips behind other flips. -/
theorem flipAll_append (pixels : Vector Bool area) (cells others : List Cell) :
    flipAll pixels (cells ++ others) =
      let (hit, flipped) := flipAll pixels cells
      let (hitLater, final) := flipAll flipped others
      (hit || hitLater, final) := by
  induction cells generalizing pixels with
  | nil => simp [flipAll]
  | cons c cells ih => simp only [List.cons_append, flipAll, ih, Bool.or_assoc]

/-- Flips have the same effect in every order, and if one of them finds its pixel lit then one
does so in every order. -/
theorem flipAll_eq_of_perm (pixels : Vector Bool area) (h : cells.Perm others) :
    flipAll pixels cells = flipAll pixels others := by
  apply Prod.ext
  · rw [Bool.eq_iff_iff, flipAll_fst_iff, flipAll_fst_iff]
    simp only [Struck, h.mem_iff, h.count_eq]
  · apply Vector.ext
    intro c hc
    have hcell := getElem_flipAll pixels cells ⟨c, hc⟩
    rw [h.count_eq, ← getElem_flipAll] at hcell
    exact hcell

/-- How many flips find their pixel lit, and so put it out. -/
def strikes (pixels : Vector Bool area) : List Cell → Nat
  | [] => 0
  | c :: cells => pixels[c].toNat + strikes (pixels.set c (!pixels[c])) cells

/-- No pixel is put out just if no flip finds its pixel lit. -/
theorem strikes_eq_zero_iff (pixels : Vector Bool area) (cells : List Cell) :
    strikes pixels cells = 0 ↔ (flipAll pixels cells).1 = false := by
  induction cells generalizing pixels with
  | nil => exact iff_of_true rfl rfl
  | cons c cells ih =>
    simp only [strikes, flipAll, Nat.add_eq_zero_iff, Bool.or_eq_false_iff, Bool.toNat_eq_zero,
      ih]

/-- A flip makes one lit pixel more, or one less. -/
theorem count_set_not (pixels : Vector Bool area) (c : Cell) :
    (pixels.set c (!pixels[c])).count true + 2 * pixels[c].toNat = pixels.count true + 1 := by
  have hcount : (pixels.set c (!pixels[c])).count true =
      (pixels.count true - if pixels[c] == true then 1 else 0) +
        if (!pixels[c]) == true then 1 else 0 := Vector.count_set c.isLt
  cases hc : pixels[c] with
  | false => simpa [hc] using hcount
  | true =>
    have hpos : 0 < pixels.count true :=
      Vector.count_pos_iff.mpr (hc ▸ Vector.getElem_mem c.isLt)
    simp only [hc, beq_true, if_true, Bool.not_true, Bool.false_eq_true, if_false,
      Bool.toNat_true] at hcount ⊢
    omega

/-- Every flip counts for one lit pixel more, but for those that put one out. -/
theorem count_flipAll (pixels : Vector Bool area) (cells : List Cell) :
    (flipAll pixels cells).2.count true + 2 * strikes pixels cells =
      pixels.count true + cells.length := by
  induction cells generalizing pixels with
  | nil => rfl
  | cons c cells ih =>
    have hstep := count_set_not pixels c
    have hrest := ih (pixels.set c (!pixels[c]))
    simp only [flipAll, strikes, List.length_cons]
    omega

end Flips

end Screen

end Chip8
