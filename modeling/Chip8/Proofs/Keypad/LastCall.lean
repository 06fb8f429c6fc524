import Chip8.Keypad

/-!
# The last word on each key

There are four ways to change a key, and each of them decides one key whatever came before.
So a keypad holds of all that happened only the last call on each of the sixteen keys, and
calls on different keys may change places.
-/

namespace Chip8.Keypad

/-- A way to change a key. -/
inductive Call where
  /-- The key is put down. -/
  | press (key : UInt8)
  /-- The key is let up. -/
  | release (key : UInt8)
  /-- The key is put down or let up. -/
  | set (key : UInt8) (down : Bool)
  /-- An event is followed. -/
  | apply (event : KeyEvent)
  deriving DecidableEq, Repr

namespace Call

/-- The key that a call is about. -/
def key : Call → UInt8
  | .press key => key
  | .release key => key
  | .set key _ => key
  | .apply event => event.key

/-- Whether the key is down after the call. -/
def down : Call → Bool
  | .press _ => true
  | .release _ => false
  | .set _ down => down
  | .apply event => event.down

/-- How the call leaves a key, which is given by its number, if it is about this key. -/
def downAt? (call : Call) (number : Nat) : Option Bool :=
  if call.key.toNat % 16 = number then some call.down else none

end Call

/-- The keys behind one call. -/
def follow (keypad : Keypad) : Call → Keypad
  | .press key => keypad.press key
  | .release key => keypad.release key
  | .set key down => keypad.set key down
  | .apply event => keypad.apply event

/-- The keys behind calls that are made one after another. -/
def perform (keypad : Keypad) (calls : List Call) : Keypad := calls.foldl follow keypad

/-- How the last of the calls about a key leaves it, if there is one. -/
def lastDown? (calls : List Call) (number : Nat) : Option Bool :=
  calls.reverse.findSome? (·.downAt? number)

variable {keypad other : Keypad} {calls : List Call} {call : Call} {key : UInt8} {number : Nat}

/-! ## One call -/

theorem index_eq_index_iff {key other : UInt8} :
    index key = index other ↔ key.toNat % 16 = other.toNat % 16 := Fin.ext_iff

/-- All calls come to setting a key. -/
theorem follow_eq_set (keypad : Keypad) (call : Call) :
    keypad.follow call = keypad.set call.key call.down := by
  cases call <;> rfl

/-- A call decides the key that it is about and no other. -/
theorem isDown_follow (keypad : Keypad) (call : Call) (key : UInt8) :
    (keypad.follow call).isDown key =
      (call.downAt? (key.toNat % 16)).getD (keypad.isDown key) := by
  rw [follow_eq_set, isDown_set, Call.downAt?]
  simp only [index_eq_index_iff]
  split <;> rfl

/-- A keypad is known by its keys. -/
theorem eq_iff_isDown : keypad = other ↔ ∀ key, keypad.isDown key = other.isDown key := by
  constructor
  · rintro rfl key
    rfl
  · intro h
    obtain ⟨keys⟩ := keypad
    obtain ⟨keys'⟩ := other
    congr 1
    apply Vector.ext
    intro k hk
    have hkey := h (UInt8.ofNat k)
    rw [isDown_ofNat _ ⟨k, hk⟩, isDown_ofNat _ ⟨k, hk⟩] at hkey
    exact hkey

/-- Calls about different keys may change places. -/
theorem follow_comm {call other : Call} (keypad : Keypad)
    (h : call.key.toNat % 16 ≠ other.key.toNat % 16) :
    (keypad.follow call).follow other = (keypad.follow other).follow call := by
  rw [eq_iff_isDown]
  intro key
  simp only [isDown_follow, Call.downAt?]
  by_cases hcall : call.key.toNat % 16 = key.toNat % 16
  · have hother : ¬other.key.toNat % 16 = key.toNat % 16 := fun hother =>
      h (hcall.trans hother.symm)
    simp only [if_pos hcall, if_neg hother, Option.getD_none, Option.getD_some]
  · simp only [if_neg hcall, Option.getD_none]

/-! ## Many calls -/

theorem lastDown?_cons (call : Call) (calls : List Call) (number : Nat) :
    lastDown? (call :: calls) number =
      (lastDown? calls number).or (call.downAt? number) := by
  simp [lastDown?, List.findSome?_append]

/-- Behind any calls a key is as the last of them that is about it has left it, and else as
it was before. -/
theorem isDown_perform (keypad : Keypad) (calls : List Call) (key : UInt8) :
    (keypad.perform calls).isDown key =
      (lastDown? calls (key.toNat % 16)).getD (keypad.isDown key) := by
  induction calls generalizing keypad with
  | nil => rfl
  | cons call calls ih =>
    have hrest : (keypad.perform (call :: calls)).isDown key =
        (lastDown? calls (key.toNat % 16)).getD ((keypad.follow call).isDown key) := ih _
    rw [hrest, isDown_follow, lastDown?_cons]
    cases lastDown? calls (key.toNat % 16) <;> rfl

/-- The last call about a key is followed by none that is. -/
theorem lastDown?_eq_some_iff {down : Bool} :
    lastDown? calls number = some down ↔
      ∃ earlier call later, calls = earlier ++ call :: later ∧
        call.key.toNat % 16 = number ∧ call.down = down ∧
        ∀ other ∈ later, other.key.toNat % 16 ≠ number := by
  have hsome : ∀ call : Call, call.downAt? number = some down ↔
      call.key.toNat % 16 = number ∧ call.down = down := by
    simp [Call.downAt?]
  have hnone : ∀ call : Call, call.downAt? number = none ↔ call.key.toNat % 16 ≠ number := by
    simp [Call.downAt?]
  simp only [lastDown?, List.findSome?_eq_some_iff, hsome, hnone]
  constructor
  · rintro ⟨later, call, earlier, hsplit, ⟨hkey, hdown⟩, hlater⟩
    refine ⟨earlier.reverse, call, later.reverse, ?_, hkey, hdown, ?_⟩
    · rw [← List.reverse_reverse calls, hsplit]
      simp
    · exact fun other hother => hlater other (List.mem_reverse.mp hother)
  · rintro ⟨earlier, call, later, rfl, hkey, hdown, hlater⟩
    refine ⟨later.reverse, call, earlier.reverse, by simp, ⟨hkey, hdown⟩, ?_⟩
    exact fun other hother => hlater other (List.mem_reverse.mp hother)

/-- A key is down just if there is a call about it and the last one puts it down. -/
theorem isDown_perform_empty_iff :
    (empty.perform calls).isDown key = true ↔
      ∃ earlier call later, calls = earlier ++ call :: later ∧
        call.key.toNat % 16 = key.toNat % 16 ∧ call.down = true ∧
        ∀ other ∈ later, other.key.toNat % 16 ≠ key.toNat % 16 := by
  rw [isDown_perform, isDown_empty, ← lastDown?_eq_some_iff]
  cases lastDown? calls (key.toNat % 16) <;> simp

/-- The bytes of a call and of a question only count in their low halves. -/
example :
    (empty.perform [.press 0x13]).isDown 0xF3 = true ∧
      (empty.perform [.press 0x13, .apply (.released 0x23)]).isDown 0x03 = false := by
  decide

/-- Calls leave the same keys behind just if their last ones do so key by key. -/
theorem perform_empty_eq_iff (calls others : List Call) :
    empty.perform calls = empty.perform others ↔
      ∀ number < 16,
        (lastDown? calls number).getD false = (lastDown? others number).getD false := by
  simp only [eq_iff_isDown, isDown_perform, isDown_empty]
  constructor
  · intro h number hnumber
    have hkey := h (UInt8.ofNat number)
    have hmod : (UInt8.ofNat number).toNat % 16 = number := by
      rw [UInt8.toNat_ofNat']
      omega
    rwa [hmod] at hkey
  · exact fun h key => h _ (Nat.mod_lt _ (by decide))

/-- Of two lists of calls whose last ones agree key by key, either may stand for the other. -/
theorem perform_congr {calls others : List Call}
    (h : ∀ number < 16, lastDown? calls number = lastDown? others number) (keypad : Keypad) :
    keypad.perform calls = keypad.perform others := by
  rw [eq_iff_isDown]
  intro key
  rw [isDown_perform, isDown_perform, h _ (Nat.mod_lt _ (by decide))]

/-- So may neighbours that are about different keys. -/
theorem perform_swap {call other : Call} (keypad : Keypad) (earlier later : List Call)
    (h : call.key.toNat % 16 ≠ other.key.toNat % 16) :
    keypad.perform (earlier ++ call :: other :: later) =
      keypad.perform (earlier ++ other :: call :: later) := by
  simp only [perform, List.foldl_append, List.foldl_cons]
  rw [follow_comm _ h]

/-- Following events is calling for each of them. -/
theorem applyAll_eq_perform (keypad : Keypad) (events : List KeyEvent) :
    keypad.applyAll events = keypad.perform (events.map .apply) := by
  rw [applyAll, perform, List.foldl_map]
  rfl

end Chip8.Keypad
