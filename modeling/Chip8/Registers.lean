/-!
# The data registers

Sixteen registers hold a byte each. A register is addressed by any byte, of which
only the low half counts. The last one, `VF`, also takes the carry, borrow and
collision flags.
-/

namespace Chip8

/-- How many data registers there are. -/
def Registers.count : Nat := 16

/-- The contents of the data registers. -/
structure Registers where
  /-- The bytes of `V0` to `VF`, in order. -/
  values : Vector UInt8 Registers.count
  deriving DecidableEq, Repr

namespace Registers

/-- The register that takes the flags. -/
def flag : UInt8 := 0xF

/-- The register that a byte stands for. -/
def index (register : UInt8) : Fin count :=
  ⟨register.toNat % count, Nat.mod_lt _ (by decide)⟩

/-- All registers hold zero. -/
def zero : Registers := ⟨Vector.replicate count 0⟩

/-- What one register holds. -/
def get (registers : Registers) (register : UInt8) : UInt8 := registers.values[index register]

/-- Put a byte into one register. -/
def set (registers : Registers) (register value : UInt8) : Registers :=
  ⟨registers.values.set (index register) value⟩

/-- Put a flag, as one or zero, into the flag register. -/
def setFlag (registers : Registers) (on : Bool) : Registers :=
  registers.set flag (if on then 1 else 0)

/-- What the registers from `V0` up to and including a given one hold, in order. -/
def through (registers : Registers) (last : UInt8) : List UInt8 :=
  (List.range (last.toNat + 1)).map fun k => registers.get (UInt8.ofNat k)

/-- Put a list of bytes into the registers from `V0` on; registers behind the end
of the list keep what they hold. -/
def load (registers : Registers) (bytes : List UInt8) : Registers :=
  ⟨Vector.ofFn fun k => bytes[k.val]?.getD registers.values[k]⟩

/-- All registers up to a given one are one more than its number. -/
@[simp] theorem length_through (registers : Registers) (last : UInt8) :
    (registers.through last).length = last.toNat + 1 := by
  simp [through]

/-- A register holds the byte that was put into it, and the others are as before. -/
theorem get_set (registers : Registers) (register other value : UInt8) :
    (registers.set register value).get other =
      if index register = index other then value else registers.get other := by
  simp only [get, set, Fin.getElem_fin, Vector.getElem_set, Fin.ext_iff]

end Registers

end Chip8
