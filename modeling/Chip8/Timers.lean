/-!
# The timers

Two bytes count down by one in every cycle that makes progress, and stay at zero
once they are there. The delay timer is for programs to read. The sound timer
gives the tone: it sounds in the very cycle in which the timer goes from one to
zero.
-/

namespace Chip8

/-- The delay timer and the sound timer. -/
structure Timers where
  /-- The timer that programs read. -/
  delay : UInt8
  /-- The timer that gives the tone. -/
  sound : UInt8
  deriving DecidableEq, Repr

namespace Timers

/-- Both timers stand at zero. -/
def zero : Timers := ⟨0, 0⟩

/-- One less, but not below zero. -/
def countDown (value : UInt8) : UInt8 := if value = 0 then 0 else value - 1

/-- Count both timers down once. -/
def tick (timers : Timers) : Timers := ⟨countDown timers.delay, countDown timers.sound⟩

/-- Whether the next tick gives the tone. -/
def expiring (timers : Timers) : Bool := timers.sound = 1

/-- Counting down is subtraction on numbers that stops at zero. -/
theorem toNat_countDown (value : UInt8) : (countDown value).toNat = value.toNat - 1 := by
  unfold countDown
  split
  · next h => subst h; rfl
  · next h =>
    have hpos : 1 ≤ value := by
      rw [UInt8.le_iff_toNat_le]
      exact Nat.one_le_iff_ne_zero.mpr fun hz => h (UInt8.toNat_inj.mp hz)
    rw [UInt8.toNat_sub_of_le _ _ hpos]
    rfl

end Timers

end Chip8
