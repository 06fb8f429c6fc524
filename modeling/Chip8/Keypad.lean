/-!
# The keypad

Sixteen keys, named by the hexadecimal digits, are each up or down. A key is
addressed by any byte; only its low half counts, so that `0x1A` and `0x0A` are
the same key. What a keypad holds is decided by the last event on each key.
-/

namespace Chip8

/-- How many keys there are. -/
def Keypad.count : Nat := 16

/-- One key going down or coming back up. -/
inductive KeyEvent where
  /-- The key went down. -/
  | pressed (key : UInt8)
  /-- The key came up. -/
  | released (key : UInt8)
  deriving DecidableEq, Repr

namespace KeyEvent

/-- The key that an event is about. -/
def key : KeyEvent → UInt8
  | .pressed key => key
  | .released key => key

/-- Whether the key is down after the event. -/
def down : KeyEvent → Bool
  | .pressed _ => true
  | .released _ => false

end KeyEvent

/-- The state of the sixteen keys. -/
structure Keypad where
  /-- For each key in order, whether it is down. -/
  keys : Vector Bool Keypad.count
  deriving DecidableEq, Repr

namespace Keypad

/-- The key that a byte stands for. -/
def index (key : UInt8) : Fin count := ⟨key.toNat % count, Nat.mod_lt _ (by decide)⟩

/-- All keys are up. -/
def empty : Keypad := ⟨Vector.replicate count false⟩

/-- Put one key down or up. -/
def set (keypad : Keypad) (key : UInt8) (down : Bool) : Keypad :=
  ⟨keypad.keys.set (index key) down⟩

/-- Put one key down. -/
def press (keypad : Keypad) (key : UInt8) : Keypad := keypad.set key true

/-- Let one key up. -/
def release (keypad : Keypad) (key : UInt8) : Keypad := keypad.set key false

/-- Follow one event. -/
def apply (keypad : Keypad) (event : KeyEvent) : Keypad := keypad.set event.key event.down

/-- Follow a list of events, the first one first. -/
def applyAll (keypad : Keypad) (events : List KeyEvent) : Keypad := events.foldl apply keypad

/-- Whether a key is down. -/
def isDown (keypad : Keypad) (key : UInt8) : Bool := keypad.keys[index key]

/-- The lowest key that is down. -/
def firstDown? (keypad : Keypad) : Option UInt8 :=
  (keypad.keys.findFinIdx? id).map fun key => UInt8.ofNat key

/-- The keys that are down, in ascending order. -/
def downKeys (keypad : Keypad) : List UInt8 :=
  ((List.range count).map UInt8.ofNat).filter keypad.isDown

/-- No key is down at first. -/
@[simp] theorem isDown_empty (key : UInt8) : empty.isDown key = false := by
  simp [isDown, empty]

/-- Setting a key decides its state and that of no other key. -/
theorem isDown_set (keypad : Keypad) (key other : UInt8) (down : Bool) :
    (keypad.set key down).isDown other =
      if index key = index other then down else keypad.isDown other := by
  simp only [isDown, set, Fin.getElem_fin, Vector.getElem_set, Fin.ext_iff]

/-! ## The lowest key -/

private theorem toNat_ofNat_key (k : Fin count) : (UInt8.ofNat k.val).toNat = k.val := by
  have hlt : k.val < 16 := k.isLt
  rw [UInt8.toNat_ofNat']
  omega

/-- Every place of the keypad has a key. -/
theorem isDown_ofNat (keypad : Keypad) (k : Fin count) :
    keypad.isDown (UInt8.ofNat k.val) = keypad.keys[k] := by
  have hindex : index (UInt8.ofNat k.val) = k := by
    apply Fin.ext
    simp only [index, toNat_ofNat_key]
    exact Nat.mod_eq_of_lt k.isLt
  simp only [isDown, hindex]

private theorem findFinIdx?_eq_some_iff {n : Nat} {keys : Vector Bool n} {k : Fin n} :
    keys.findFinIdx? id = some k ↔ keys[k] = true ∧ ∀ j, j < k → keys[j] = false := by
  obtain ⟨keys, rfl⟩ := keys
  simp [Array.findFinIdx?_eq_some_iff]

private theorem firstDown?_eq_map (keypad : Keypad) :
    keypad.firstDown? =
      (keypad.keys.findFinIdx? id).map fun k : Fin count => UInt8.ofNat k.val := by
  unfold firstDown?
  cases keypad.keys.findFinIdx? id <;> rfl

/-- There is no lowest key just when every key is up. -/
theorem firstDown?_eq_none_iff {keypad : Keypad} :
    keypad.firstDown? = none ↔ ∀ key, keypad.isDown key = false := by
  simp only [firstDown?_eq_map, Option.map_eq_none_iff, Vector.findFinIdx?_eq_none_iff]
  constructor
  · intro h key
    exact Bool.eq_false_iff.mpr (h _ (Vector.getElem_mem _))
  · intro h down hmem
    obtain ⟨k, hk, rfl⟩ := Vector.getElem_of_mem hmem
    exact Bool.eq_false_iff.mp ((keypad.isDown_ofNat ⟨k, hk⟩).symm.trans (h _))

/-- The lowest key is down, and every key below it is up. -/
theorem firstDown?_eq_some_iff {keypad : Keypad} {key : UInt8} :
    keypad.firstDown? = some key ↔
      key.toNat < count ∧ keypad.isDown key = true ∧
        ∀ other, other < key → keypad.isDown other = false := by
  simp only [firstDown?_eq_map, Option.map_eq_some_iff, findFinIdx?_eq_some_iff]
  constructor
  · rintro ⟨k, ⟨hdown, hup⟩, rfl⟩
    rw [toNat_ofNat_key, isDown_ofNat]
    refine ⟨k.isLt, hdown, ?_⟩
    intro other hother
    rw [UInt8.lt_iff_toNat_lt, toNat_ofNat_key] at hother
    exact hup _ (Fin.lt_def.mpr (Nat.lt_of_le_of_lt (Nat.mod_le _ _) hother))
  · rintro ⟨hlt, hdown, hup⟩
    have hkey : (index key).val = key.toNat := Nat.mod_eq_of_lt hlt
    refine ⟨index key, ⟨hdown, ?_⟩, by rw [hkey, UInt8.ofNat_toNat]⟩
    intro k hk
    rw [Fin.lt_def, hkey] at hk
    rw [← isDown_ofNat]
    apply hup
    rwa [UInt8.lt_iff_toNat_lt, toNat_ofNat_key]

end Keypad

end Chip8
