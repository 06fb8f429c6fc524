import Chip8.Screen
import Mathlib.Algebra.BigOperators.Group.Finset.Piecewise
import Mathlib.Algebra.BigOperators.Group.Finset.Sigma
import Mathlib.Algebra.Ring.Parity
import Mathlib.Data.Nat.Count

/-!
# What a sprite does to the screen

A sprite is drawn bit by bit, and later bits find what earlier ones left. Still the whole
effect is told by a count: how many set bits of the sprite fall on a pixel. An odd count
flips the pixel and an even one leaves it as it was, whatever the order of the bits. There
is a collision just if some pixel was lit and is hit, or is hit more than once, and the
latter takes a sprite that is taller than the screen.
-/

namespace Chip8.Screen

/-- The set bits of a sprite that fall on the pixel in column `i` and row `j`. Each is given
by a row and a column of the sprite, whose top left corner is in column `x` and row `y`. -/
def bitsOn (x y : Nat) (rows : List UInt8) (i j : Nat) : Finset (Nat × Nat) :=
  (Finset.range rows.length ×ˢ Finset.range 8).filter fun bit =>
    (rows[bit.1]?.getD 0).toNat.testBit (7 - bit.2) = true ∧
      ((x + bit.2) % width, (y + bit.1) % height) = (i, j)

/-- How many set bits of a sprite fall on the pixel in column `i` and row `j`. -/
def hits (x y : Nat) (rows : List UInt8) (i j : Nat) : Nat := (bitsOn x y rows i j).card

/-! ## The pixels under a sprite -/

section Covered

variable {x y i j : Nat} {bits : UInt8} {rows : List UInt8}

/-- The set bits of the first row fall on a pixel or not, whatever the rows below it do. -/
theorem hits_cons (x y : Nat) (bits : UInt8) (rows : List UInt8) (i j : Nat) :
    hits x y (bits :: rows) i j =
      ((Finset.range 8).filter fun k =>
        bits.toNat.testBit (7 - k) = true ∧ ((x + k) % width, y % height) = (i, j)).card +
        hits x (y + 1) rows i j := by
  simp only [hits, bitsOn, Finset.card_filter, Finset.sum_product, List.length_cons]
  rw [Finset.sum_range_succ', Nat.add_comm]
  simp only [List.getElem?_cons_succ, List.getElem?_cons_zero, Option.getD_some, Nat.add_zero,
    Nat.add_assoc, Nat.add_comm 1]

/-- A pixel is listed once for each set bit of a row that falls on it. -/
theorem count_litColumns (hi : i < width) (hj : j < height) :
    ((litColumns bits).map fun k => cell (x + k) y).count (cell i j) =
      ((Finset.range 8).filter fun k =>
        bits.toNat.testBit (7 - k) = true ∧ ((x + k) % width, y % height) = (i, j)).card := by
  have hcell : ∀ k, cell (x + k) y = cell i j ↔ ((x + k) % width, y % height) = (i, j) := by
    intro k
    rw [cell_eq_cell_iff, Nat.mod_eq_of_lt hi, Nat.mod_eq_of_lt hj, Prod.mk.injEq]
  rw [List.count, List.countP_map, litColumns, List.countP_filter,
    ← Nat.count_eq_card_filter_range, Nat.count]
  congr 1
  funext k
  simp only [Function.comp_apply, beq_eq_decide, hcell, Bool.decide_and, Bool.decide_eq_true,
    Bool.and_comm]

/-- A pixel is listed among those that a sprite covers once for each set bit on it. -/
theorem count_covered (hi : i < width) (hj : j < height) :
    (covered x y rows).count (cell i j) = hits x y rows i j := by
  induction rows generalizing y with
  | nil => simp [covered, hits, bitsOn]
  | cons bits rows ih =>
    rw [covered, List.count_append, count_litColumns hi hj, ih, hits_cons]

/-- A sprite that is no taller than the screen hits no pixel twice. -/
theorem hits_le_one (h : rows.length ≤ height) : hits x y rows i j ≤ 1 := by
  rw [hits, Finset.card_le_one]
  rintro ⟨r, k⟩ hfirst ⟨r', k'⟩ hsecond
  simp only [bitsOn, Finset.mem_filter, Finset.mem_product, Finset.mem_range, Prod.mk.injEq,
    width, height] at hfirst hsecond h
  obtain ⟨⟨hr, hk⟩, -, hcolumn, hrow⟩ := hfirst
  obtain ⟨⟨hr', hk'⟩, -, hcolumn', hrow'⟩ := hsecond
  have hsameRow : r = r' := by omega
  have hsameColumn : k = k' := by omega
  rw [hsameRow, hsameColumn]

/-- With one row more the last falls on the first. -/
example : hits 0 0 (List.replicate 33 0x80) 0 0 = 2 := by decide +kernel

end Covered

/-! ## Drawing -/

/-- Every pixel of the bitmap is the one of a column and a row of the screen. -/
theorem exists_cell_iff {P : Cell → Prop} :
    (∃ c, P c) ↔ ∃ i j, i < width ∧ j < height ∧ P (cell i j) := by
  constructor
  · rintro ⟨c, hc⟩
    refine ⟨column c, row c, column_lt c, row_lt c, ?_⟩
    rwa [cell_column_row]
  · rintro ⟨i, j, -, -, h⟩
    exact ⟨cell i j, h⟩

variable {screen other : Screen} {x y i j : Nat} {rows : List UInt8}

/-- Drawing flips a pixel once for each set bit on it. -/
theorem isLit_drawSprite (hi : i < width) (hj : j < height) :
    (screen.drawSprite x y rows).2.isLit i j =
      (screen.isLit i j ^^ decide (Odd (hits x y rows i j))) := by
  simp only [Nat.odd_iff, ← count_covered hi hj]
  exact getElem_flipAll screen.pixels (covered x y rows) (cell i j)

/-- A collision is a hit on a lit pixel or a second hit on any pixel. -/
theorem drawSprite_fst_iff :
    (screen.drawSprite x y rows).1 = true ↔ ∃ i j, i < width ∧ j < height ∧
      (screen.isLit i j = true ∧ 1 ≤ hits x y rows i j ∨ 2 ≤ hits x y rows i j) := by
  have hflips : (screen.drawSprite x y rows).1 =
      (flipAll screen.pixels (covered x y rows)).1 := rfl
  rw [hflips, flipAll_fst_iff, exists_cell_iff]
  refine exists_congr fun i => exists_congr fun j => ?_
  refine and_congr_right fun hi => and_congr_right fun hj => ?_
  rw [Struck, ← List.count_pos_iff, count_covered hi hj]
  rfl

/-- Only the pixels under the set bits of a sprite decide whether it collides. -/
theorem drawSprite_fst_congr
    (h : ∀ i j, 0 < hits x y rows i j → screen.isLit i j = other.isLit i j) :
    (screen.drawSprite x y rows).1 = (other.drawSprite x y rows).1 := by
  rw [Bool.eq_iff_iff, drawSprite_fst_iff, drawSprite_fst_iff]
  refine exists_congr fun i => exists_congr fun j => ?_
  refine and_congr_right fun _ => and_congr_right fun _ => or_congr_left ?_
  exact and_congr_left fun hhit => by rw [h i j hhit]

/-- Drawing a sprite flips just the pixels on which an odd number of its set bits fall, the
columns counted round the width of the screen and the rows round its height, and leaves the
screen dirty. The answer tells whether some pixel was lit and is hit, or is hit twice. The
latter only happens with a sprite that has more rows than the screen. -/
theorem drawSprite_flips_odd_hits (screen : Screen) (x y : Nat) (rows : List UInt8) :
    let collision := (screen.drawSprite x y rows).1
    let drawn := (screen.drawSprite x y rows).2
    let hits := hits x y rows
    (∀ i j, i < width → j < height →
      (drawn.isLit i j = true ↔ Xor (screen.isLit i j = true) (Odd (hits i j)))) ∧
    drawn.dirty = true ∧
    (collision = true ↔ ∃ i j, i < width ∧ j < height ∧
      (screen.isLit i j = true ∧ 1 ≤ hits i j ∨ 2 ≤ hits i j)) ∧
    (∀ i j, 2 ≤ hits i j → height < rows.length) := by
  intro collision drawn hits
  refine ⟨?_, rfl, drawSprite_fst_iff, ?_⟩
  · intro i j hi hj
    have hlit : drawn.isLit i j = (screen.isLit i j ^^ decide (Odd (hits i j))) :=
      isLit_drawSprite hi hj
    rw [hlit, xor_iff_not_iff]
    cases screen.isLit i j <;> simp
  · intro i j htwice
    refine Nat.lt_of_not_le fun hle => ?_
    have hone : hits i j ≤ 1 := hits_le_one hle
    omega

end Chip8.Screen
