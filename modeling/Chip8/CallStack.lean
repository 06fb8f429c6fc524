/-!
# The call stack

Sixteen slots hold the addresses of the calls that have not returned yet; the
pointer counts how many of them are in use. A slot above the pointer keeps
whatever it held, so a stack is read through `frames`, its live part.
-/

namespace Chip8

/-- How many calls may be pending at once. -/
def CallStack.capacity : Nat := 16

/-- The addresses of pending calls. -/
structure CallStack where
  /-- The storage, filled from the front. -/
  slots : Vector UInt16 CallStack.capacity
  /-- How many slots are in use. -/
  pointer : UInt8
  deriving DecidableEq, Repr

namespace CallStack

/-- No call is pending. -/
def empty : CallStack := ⟨Vector.replicate capacity 0, 0⟩

/-- How many calls are pending. -/
def depth (stack : CallStack) : Nat := stack.pointer.toNat

/-- The pending calls, the outermost one first. -/
def frames (stack : CallStack) : List UInt16 := stack.slots.toList.take stack.depth

/-- Note one more call; a full stack refuses. -/
def push? (stack : CallStack) (address : UInt16) : Option CallStack :=
  if h : stack.depth < capacity then
    some ⟨stack.slots.set stack.depth address h, stack.pointer + 1⟩
  else none

/-- Take the innermost call off; a stack without one refuses. -/
def pop? (stack : CallStack) : Option (UInt16 × CallStack) :=
  if stack.pointer = 0 then none
  else stack.slots[stack.depth - 1]?.map fun address => (address, ⟨stack.slots, stack.pointer - 1⟩)

/-! ## What calls and returns do to the pending calls -/

/-- The live part is as long as the pointer says, as long as that is within the slots. -/
theorem length_frames {stack : CallStack} (h : stack.depth ≤ capacity) :
    stack.frames.length = stack.depth := by
  simp only [frames, List.length_take, Vector.length_toList]
  omega

/-- Only a full stack refuses a call. -/
theorem push?_eq_none_iff {stack : CallStack} {address : UInt16} :
    stack.push? address = none ↔ capacity ≤ stack.depth := by
  unfold push?
  split <;> simp <;> omega

/-- A call uses one more slot. -/
theorem depth_of_push? {stack next : CallStack} {address : UInt16}
    (h : stack.push? address = some next) : next.depth = stack.depth + 1 := by
  unfold push? at h
  split at h
  next hlt =>
    cases h
    simp only [depth, capacity] at hlt ⊢
    rw [UInt8.toNat_add]
    exact Nat.mod_eq_of_lt (by simp; omega)
  · cases h

/-- A call goes behind the pending ones. -/
theorem frames_of_push? {stack next : CallStack} {address : UInt16}
    (h : stack.push? address = some next) : next.frames = stack.frames ++ [address] := by
  have hdepth := depth_of_push? h
  unfold push? at h
  split at h
  next hlt =>
    have hslots : next.slots = stack.slots.set stack.depth address hlt :=
      congrArg slots (Option.some.inj h).symm
    simp only [frames, hdepth, hslots, Vector.toList_set]
    rw [List.take_add_one, List.take_set_of_le (Nat.le_refl _)]
    simp [hlt]
  · cases h

/-- A call fills the slot at the pointer. -/
theorem getElem_slots_of_push? {stack next : CallStack} {address : UInt16}
    (h : stack.push? address = some next) (k : Nat) (hk : k < capacity) :
    next.slots[k] = if stack.depth = k then address else stack.slots[k] := by
  unfold push? at h
  split at h
  next hlt =>
    cases h
    exact Vector.getElem_set hlt hk
  · cases h

/-- A return frees one slot. -/
theorem depth_of_pop? {stack next : CallStack} {address : UInt16}
    (h : stack.pop? = some (address, next)) : stack.depth = next.depth + 1 := by
  unfold pop? at h
  split at h
  · cases h
  next hne =>
    obtain ⟨a, ha, he⟩ := Option.map_eq_some_iff.mp h
    cases he
    have hpos : 1 ≤ stack.pointer := by
      rw [UInt8.le_iff_toNat_le]
      exact Nat.one_le_iff_ne_zero.mpr fun hz => hne (UInt8.toNat_inj.mp hz)
    have hle : 1 ≤ stack.pointer.toNat := UInt8.le_iff_toNat_le.mp hpos
    have hlast : (stack.pointer - 1).toNat = stack.pointer.toNat - 1 :=
      UInt8.toNat_sub_of_le _ _ hpos
    simp only [depth, hlast]
    omega

/-- A return takes the innermost call off. -/
theorem frames_of_pop? {stack next : CallStack} {address : UInt16}
    (h : stack.pop? = some (address, next)) : stack.frames = next.frames ++ [address] := by
  have hdepth := depth_of_pop? h
  unfold pop? at h
  split at h
  · cases h
  · obtain ⟨a, ha, he⟩ := Option.map_eq_some_iff.mp h
    cases he
    rw [hdepth, Nat.add_sub_cancel] at ha
    simp only [frames, hdepth, List.take_add_one]
    simp [ha]

/-- A freed slot keeps what it held. -/
theorem slots_of_pop? {stack next : CallStack} {address : UInt16}
    (h : stack.pop? = some (address, next)) : next.slots = stack.slots := by
  unfold pop? at h
  split at h
  · cases h
  · obtain ⟨a, -, he⟩ := Option.map_eq_some_iff.mp h
    cases he
    rfl

/-- A return is refused just when no call is pending, unless the pointer is off the slots. -/
theorem pop?_eq_none_iff {stack : CallStack} (h : stack.depth ≤ capacity) :
    stack.pop? = none ↔ stack.depth = 0 := by
  unfold pop?
  split
  next hzero => simp [depth, hzero]
  next hne =>
    have hpos : stack.depth ≠ 0 := fun hz => hne (UInt8.toNat_inj.mp hz)
    have hlt : stack.depth - 1 < capacity := by omega
    simp [hlt, hpos]

end CallStack

end Chip8
