import Chip8.Screen
import Mathlib.Data.List.Sort

/-!
# The bitmap and its observers

The pixels lie row by row in one array. A pixel is looked up by its column and row, counted
round the edges, the whole array can be read, and the lit pixels can be listed. All three see
one bitmap, since a column and a row within the edges are found again from the place they
name. The mark of a screen tells its recent history: it is set until the screen is noted as
shown, and again from the next write on, so that no change of the picture goes unnoticed.
-/

namespace Chip8.Screen

/-- Something that is done to a screen. -/
inductive Operation where
  /-- Every pixel is made dark. -/
  | clear
  /-- One pixel is made lit or dark. -/
  | set (x y : Nat) (lit : Bool)
  /-- A sprite is drawn. -/
  | draw (x y : Nat) (rows : List UInt8)
  /-- The mark is read, and the screen noted as shown. -/
  | takeDirty
  deriving DecidableEq, Repr

/-- Whether an operation writes to the pixels. -/
def Operation.writes : Operation → Bool
  | .takeDirty => false
  | _ => true

/-- The screen behind one operation. -/
def after (screen : Screen) : Operation → Screen
  | .clear => screen.clear
  | .set x y lit => screen.set x y lit
  | .draw x y rows => (screen.drawSprite x y rows).2
  | .takeDirty => screen.takeDirty.2

/-- The screen behind operations that are done one after another. -/
def perform (screen : Screen) (operations : List Operation) : Screen :=
  operations.foldl after screen

/-- Along the operations the mark is found set, or it is set behind them. -/
def Noticed (screen : Screen) (operations : List Operation) : Prop :=
  (screen.perform operations).dirty = true ∨
    ∃ k, operations[k]? = some .takeDirty ∧
      (screen.perform (operations.take k)).takeDirty.1 = true

/-! ## Places in the array -/

variable {screen : Screen} {x y i j : Nat}

/-- The place of a pixel within the edges. -/
theorem val_cell (hx : x < width) (hy : y < height) : (cell x y).val = x + 64 * y := by
  have hcolumn : x % width = x := Nat.mod_eq_of_lt hx
  have hrow : y % height = y := Nat.mod_eq_of_lt hy
  simp only [cell, hcolumn, hrow]
  rw [Nat.mul_comm, width]

/-- Places ascend by row, and within a row by column. -/
theorem row_lt_or_of_lt {c d : Cell} (h : c < d) :
    row c < row d ∨ row c = row d ∧ column c < column d := by
  simp only [row, column, width, Fin.lt_def] at h ⊢
  omega

/-! ## The observers -/

/-- A pixel is known by its residues. -/
theorem isLit_congr (hx : x % width = i % width) (hy : y % height = j % height) :
    screen.isLit x y = screen.isLit i j := by
  have hcell : cell x y = cell i j := cell_eq_cell_iff.mpr ⟨hx, hy⟩
  simp only [isLit, hcell]

/-- Reading the array within the edges is looking up the pixel. -/
theorem getElem?_pixels (hx : x < width) (hy : y < height) :
    screen.pixels[x + 64 * y]? = some (screen.isLit x y) := by
  rw [← val_cell hx hy]
  exact Vector.getElem?_eq_getElem (cell x y).isLt

/-- The listed pixels are the lit ones. -/
theorem mem_litPixels_iff :
    (x, y) ∈ screen.litPixels ↔ x < width ∧ y < height ∧ screen.isLit x y = true := by
  simp only [litPixels, List.mem_map, List.mem_filter, List.mem_finRange, true_and,
    Prod.mk.injEq]
  constructor
  · rintro ⟨c, hlit, rfl, rfl⟩
    refine ⟨column_lt c, row_lt c, ?_⟩
    simpa only [isLit, cell_column_row] using hlit
  · rintro ⟨hx, hy, hlit⟩
    exact ⟨cell x y, hlit, column_cell hx, row_cell hy⟩

/-- The lit pixels are listed row by row, each row from the left. -/
theorem pairwise_litPixels (screen : Screen) :
    screen.litPixels.Pairwise fun p q => p.2 < q.2 ∨ p.2 = q.2 ∧ p.1 < q.1 := by
  have hplaces : ((List.finRange area).filter fun c => screen.pixels[c]).Pairwise (· < ·) :=
    (List.sortedLT_finRange area).pairwise.filter _
  exact List.pairwise_map.mpr (hplaces.imp row_lt_or_of_lt)

/-- No lit pixel is listed twice. -/
theorem nodup_litPixels (screen : Screen) : screen.litPixels.Nodup := by
  refine (pairwise_litPixels screen).imp ?_
  rintro p q h rfl
  omega

/-! ## The mark -/

variable {operations : List Operation} {op : Operation}

/-- One operation sets the mark or takes it away. -/
theorem dirty_after (screen : Screen) (op : Operation) :
    (screen.after op).dirty = op.writes := by
  cases op <;> rfl

/-- All operations but one write. -/
theorem Operation.writes_iff : op.writes = true ↔ op ≠ .takeDirty := by
  cases op <;> simp [writes]

/-- The last operation decides the mark of a screen that was blank at first. -/
theorem dirty_perform_blank_iff (operations : List Operation) :
    (blank.perform operations).dirty = true ↔ operations.getLast? ≠ some .takeDirty := by
  rcases List.eq_nil_or_concat operations with rfl | ⟨before, op, rfl⟩
  · exact iff_of_true rfl nofun
  · have hdirty : (blank.perform (before.concat op)).dirty = op.writes := by
      rw [List.concat_eq_append, perform, List.foldl_append]
      exact dirty_after _ op
    rw [hdirty, Operation.writes_iff]
    simp

/-- Where a screen is noted as shown there is a last time. -/
theorem exists_last_takeDirty (h : .takeDirty ∈ operations) :
    ∃ earlier later, operations = earlier ++ .takeDirty :: later ∧
      Operation.takeDirty ∉ later := by
  obtain ⟨later, earlier, hsplit, hlater⟩ :=
    List.eq_append_cons_of_mem (List.mem_reverse.mpr h)
  refine ⟨earlier.reverse, later.reverse, ?_, by rwa [List.mem_reverse]⟩
  rw [← List.reverse_reverse operations, hsplit]
  simp

/-- The last operation is another one just if the screen was never noted as shown, or was
written to after the last time. -/
theorem getLast?_ne_takeDirty_iff (operations : List Operation) :
    operations.getLast? ≠ some .takeDirty ↔
      .takeDirty ∉ operations ∨
      ∃ earlier later, operations = earlier ++ .takeDirty :: later ∧ .takeDirty ∉ later ∧
        ∃ op ∈ later, op.writes = true := by
  constructor
  · intro hlast
    by_cases hshown : .takeDirty ∈ operations
    · obtain ⟨earlier, later, rfl, hlater⟩ := exists_last_takeDirty hshown
      right
      refine ⟨earlier, later, rfl, hlater, ?_⟩
      cases later with
      | nil => exact absurd (by simp) hlast
      | cons op later =>
        have hop : op ≠ .takeDirty := fun h => hlater (h ▸ List.mem_cons_self)
        exact ⟨op, List.mem_cons_self, Operation.writes_iff.mpr hop⟩
    · exact .inl hshown
  · rintro (hnever | ⟨earlier, later, rfl, hlater, op, hop, -⟩) hlast
    · exact hnever (List.mem_of_getLast? hlast)
    · have hne : later ≠ [] := List.ne_nil_of_mem hop
      rw [List.append_cons, List.getLast?_append_of_ne_nil _ hne] at hlast
      exact hlater (List.mem_of_getLast? hlast)

/-- What is noticed later is noticed. -/
theorem Noticed.cons (h : Noticed (screen.after op) operations) :
    Noticed screen (op :: operations) := by
  rcases h with hdirty | ⟨k, hk, hset⟩
  · exact .inl hdirty
  · exact .inr ⟨k + 1, hk, hset⟩

/-- A mark that is set is noticed. -/
theorem noticed_of_dirty (hdirty : screen.dirty = true) : Noticed screen operations := by
  induction operations generalizing screen with
  | nil => exact .inl hdirty
  | cons op operations ih =>
    by_cases hop : op = .takeDirty
    · subst hop
      exact .inr ⟨0, rfl, hdirty⟩
    · have hwrites : op.writes = true := Operation.writes_iff.mpr hop
      exact (ih ((dirty_after screen op).trans hwrites)).cons

/-- A change of the pixels is noticed. -/
theorem noticed_of_pixels_ne (h : screen.pixels ≠ (screen.perform operations).pixels) :
    Noticed screen operations := by
  induction operations generalizing screen with
  | nil => exact absurd rfl h
  | cons op operations ih =>
    by_cases hop : op = .takeDirty
    · subst hop
      exact (ih h).cons
    · have hwrites : op.writes = true := Operation.writes_iff.mpr hop
      exact (noticed_of_dirty ((dirty_after screen op).trans hwrites)).cons

/-- Whatever was done to a screen that was blank at first, it is a bitmap of 64 by 32 pixels
whose edges are joined, and all observers agree on it. A pixel is known by the residues of
its column and row, a write to it decides it and no other, and all are dark once the screen
is cleared. The array holds the pixels row by row, and the list of the lit ones has each of
them once, row by row from the left. The mark is set just if the screen was never noted as
shown or was written to after the last time, so that between two moments at which the pixels
differ it is found set, or it is set at the later one. -/
theorem bitmap_agrees_with_observers (operations : List Operation) :
    let screen := blank.perform operations
    (∀ x y i j, x % 64 = i % 64 → y % 32 = j % 32 → screen.isLit x y = screen.isLit i j) ∧
    (∀ x y lit i j, (screen.set x y lit).isLit i j =
      if x % 64 = i % 64 ∧ y % 32 = j % 32 then lit else screen.isLit i j) ∧
    (∀ x y, screen.clear.isLit x y = false) ∧
    (∀ x y, x < 64 → y < 32 → screen.pixels[x + 64 * y]? = some (screen.isLit x y)) ∧
    (∀ x y, (x, y) ∈ screen.litPixels ↔ x < 64 ∧ y < 32 ∧ screen.isLit x y = true) ∧
    screen.litPixels.Nodup ∧
    screen.litPixels.Pairwise (fun p q => p.2 < q.2 ∨ p.2 = q.2 ∧ p.1 < q.1) ∧
    (screen.dirty = true ↔
      .takeDirty ∉ operations ∨
      ∃ earlier later, operations = earlier ++ .takeDirty :: later ∧ .takeDirty ∉ later ∧
        ∃ op ∈ later, op.writes = true) ∧
    ∀ between, screen.pixels ≠ (screen.perform between).pixels →
      (screen.perform between).dirty = true ∨
        ∃ k, between[k]? = some .takeDirty ∧
          (screen.perform (between.take k)).takeDirty.1 = true := by
  intro screen
  refine ⟨fun _ _ _ _ => isLit_congr, ?_, isLit_blank, fun _ _ => getElem?_pixels,
    fun _ _ => mem_litPixels_iff, nodup_litPixels screen, pairwise_litPixels screen, ?_,
    fun _ => noticed_of_pixels_ne⟩
  · intro x y lit i j
    rw [isLit_set]
    exact if_congr cell_eq_cell_iff rfl rfl
  · exact (dirty_perform_blank_iff operations).trans (getLast?_ne_takeDirty_iff operations)

/-- The mark can be set where nothing changed: a sprite without rows counts as a write. -/
example :
    let drawn := blank.perform [.takeDirty, .draw 0 0 []]
    drawn.pixels = blank.pixels ∧ drawn.dirty = true :=
  ⟨rfl, rfl⟩

end Chip8.Screen
