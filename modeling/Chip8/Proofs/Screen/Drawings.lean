import Chip8.Proofs.Screen.Sprite

/-!
# Many sprites

Drawing sprites one after another flips all the pixels they cover, and so the order of the
drawings does not show in the picture. A single collision depends on it, for of two sprites
that meet the later one collides, but whether there is a collision at all does not. Each flip
lights a pixel or puts one out, and those that put one out are the collisions: they tell how
many pixels are missing from the sum of the set bits.
-/

namespace Chip8.Screen

/-- A sprite, and the pixel at its top left corner. -/
structure Drawing where
  /-- The column of the corner. -/
  x : Nat
  /-- The row of the corner. -/
  y : Nat
  /-- The rows of the sprite. -/
  rows : List UInt8
  deriving DecidableEq, Repr

/-- The pixels under the set bits of the sprite. -/
def Drawing.cells (drawing : Drawing) : List Cell := covered drawing.x drawing.y drawing.rows

/-- How many bits of a byte are set. -/
def bitCount (bits : UInt8) : Nat := (List.range 8).countP fun k => bits.toNat.testBit k

/-- How many bits of the sprite are set. -/
def Drawing.bitCount (drawing : Drawing) : Nat := (drawing.rows.map Screen.bitCount).sum

/-- Draw one sprite after another. The answer tells of each whether it collided. -/
def drawAll (screen : Screen) : List Drawing → List Bool × Screen
  | [] => ([], screen)
  | drawing :: later =>
    let (collision, drawn) := screen.drawSprite drawing.x drawing.y drawing.rows
    let (collisions, final) := drawn.drawAll later
    (collision :: collisions, final)

/-! ## Counting the bits -/

/-- There are as many set bits in a byte as columns under them. -/
theorem length_litColumns (bits : UInt8) : (litColumns bits).length = bitCount bits := by
  have hcolumns : (List.range 8).map (7 - ·) = (List.range 8).reverse := rfl
  rw [bitCount, ← List.countP_reverse, ← hcolumns, List.countP_map, litColumns,
    ← List.countP_eq_length_filter]
  rfl

/-- A sprite covers a pixel for each of its set bits. -/
theorem length_cells (drawing : Drawing) : drawing.cells.length = drawing.bitCount := by
  obtain ⟨x, y, rows⟩ := drawing
  simp only [Drawing.cells, Drawing.bitCount]
  induction rows generalizing y with
  | nil => rfl
  | cons bits rows ih =>
    rw [covered, List.length_append, List.length_map, length_litColumns, ih, List.map_cons,
      List.sum_cons]

/-- The lit pixels are as many as there are lit cells in the bitmap. -/
theorem length_litPixels (screen : Screen) : screen.litPixels.length = screen.litCount := by
  have h := congrArg (Vector.count true) (@Vector.ofFn_getElem _ _ screen.pixels)
  simpa only [litPixels, litCount, List.length_map, ← List.countP_eq_length_filter,
    ← Vector.count_toList, Vector.toList_ofFn, List.ofFn_eq_map, List.count, List.countP_map,
    Function.comp_def, beq_true, Fin.getElem_fin] using h

/-! ## One sprite after another -/

variable {screen : Screen} {calls others : List Drawing}

/-- Drawings flip all the pixels they cover. -/
theorem flipAll_flatMap_cells (screen : Screen) (calls : List Drawing) :
    flipAll screen.pixels (calls.flatMap Drawing.cells) =
      ((screen.drawAll calls).1.any id, (screen.drawAll calls).2.pixels) := by
  induction calls generalizing screen with
  | nil => rfl
  | cons drawing calls ih =>
    let drawn := screen.drawSprite drawing.x drawing.y drawing.rows
    have hfirst : flipAll screen.pixels drawing.cells = (drawn.1, drawn.2.pixels) := rfl
    rw [List.flatMap_cons, flipAll_append, hfirst]
    simp only [ih]
    rfl

/-- A screen is left dirty by any drawing. -/
theorem dirty_drawAll (screen : Screen) (calls : List Drawing) :
    (screen.drawAll calls).2.dirty = (screen.dirty || !calls.isEmpty) := by
  induction calls generalizing screen with
  | nil => exact (Bool.or_false _).symm
  | cons drawing calls ih =>
    let drawn := screen.drawSprite drawing.x drawing.y drawing.rows
    have hrest : (screen.drawAll (drawing :: calls)).2 = (drawn.2.drawAll calls).2 := rfl
    have hdirty : drawn.2.dirty = true := rfl
    rw [hrest, ih, hdirty, Bool.true_or, List.isEmpty_cons, Bool.not_false, Bool.or_true]

/-- Some drawing collides just if some of all the flips finds its pixel lit. -/
theorem mem_collisions_iff :
    true ∈ (screen.drawAll calls).1 ↔
      (flipAll screen.pixels (calls.flatMap Drawing.cells)).1 = true := by
  rw [flipAll_flatMap_cells]
  simp

/-- The screen does not show in which order the sprites were drawn. -/
theorem drawAll_snd_of_perm (h : calls.Perm others) :
    (screen.drawAll others).2 = (screen.drawAll calls).2 := by
  have hflips := flipAll_eq_of_perm screen.pixels (h.flatMap_right Drawing.cells)
  rw [flipAll_flatMap_cells, flipAll_flatMap_cells, Prod.mk.injEq] at hflips
  have hdirty : (screen.drawAll others).2.dirty = (screen.drawAll calls).2.dirty := by
    rw [dirty_drawAll, dirty_drawAll, h.isEmpty_eq]
  exact congrArg₂ Screen.mk hflips.2.symm hdirty

/-- And if some drawing collides, then some does in every order. -/
theorem mem_collisions_iff_of_perm (h : calls.Perm others) :
    true ∈ (screen.drawAll others).1 ↔ true ∈ (screen.drawAll calls).1 := by
  rw [mem_collisions_iff, mem_collisions_iff,
    flipAll_eq_of_perm screen.pixels (h.flatMap_right Drawing.cells)]

/-- Each set bit of the drawings counts for one lit pixel more, but for the flips that put
one out. -/
theorem litCount_drawAll (screen : Screen) (calls : List Drawing) :
    (screen.drawAll calls).2.litCount +
        2 * strikes screen.pixels (calls.flatMap Drawing.cells) =
      screen.litCount + (calls.map Drawing.bitCount).sum := by
  have hcount := count_flipAll screen.pixels (calls.flatMap Drawing.cells)
  rw [flipAll_flatMap_cells, List.length_flatMap] at hcount
  simp only [length_cells] at hcount
  exact hcount

/-- Whatever is on the screen, drawing the same sprites in another order leaves the same
screen, and if some drawing collides then some does in every order. None collides just if
there are as many lit pixels as before and one more for each set bit. Otherwise fewer are
lit, by an even number. -/
theorem drawAll_commutes_and_balances (screen : Screen) (calls : List Drawing) :
    let collisions := (screen.drawAll calls).1
    let drawn := (screen.drawAll calls).2
    let bits := (calls.map Drawing.bitCount).sum
    (∀ others, calls.Perm others →
      (screen.drawAll others).2 = drawn ∧
      (true ∈ (screen.drawAll others).1 ↔ true ∈ collisions)) ∧
    (true ∉ collisions ↔ drawn.litPixels.length = screen.litPixels.length + bits) ∧
    (true ∈ collisions → ∃ missing, 0 < missing ∧ Even missing ∧
      drawn.litPixels.length + missing = screen.litPixels.length + bits) := by
  intro collisions drawn bits
  refine ⟨fun others h => ⟨drawAll_snd_of_perm h, mem_collisions_iff_of_perm h⟩, ?_⟩
  have hbalance : drawn.litCount +
      2 * strikes screen.pixels (calls.flatMap Drawing.cells) = screen.litCount + bits :=
    litCount_drawAll screen calls
  have hzero := strikes_eq_zero_iff screen.pixels (calls.flatMap Drawing.cells)
  rw [← Bool.not_eq_true, ← mem_collisions_iff] at hzero
  rw [length_litPixels, length_litPixels]
  constructor
  · rw [← hzero]
    omega
  · intro hcollision
    have hpos := Nat.pos_of_ne_zero fun h => hzero.mp h hcollision
    exact ⟨_, Nat.mul_pos Nat.two_pos hpos, even_two_mul _, hbalance⟩

/-- Of two sprites that meet the later one collides. -/
example :
    let left : Drawing := ⟨0, 0, [0x80]⟩
    let right : Drawing := ⟨63, 0, [0xC0]⟩
    (blank.drawAll [left, right]).1 = [false, true] ∧
      (blank.drawAll [right, left]).1 = [false, true] := by
  decide +kernel

end Chip8.Screen
