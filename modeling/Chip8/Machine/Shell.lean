import Chip8.Keypad
import Chip8.Screen

/-!
# Shells

A shell is whatever shows the screen of a machine and knows its keys. The machine
asks it once per cycle for what happened to the keys and whether it is still there,
draws on the screen that it holds, and tells it when to show the screen and when to
beep.
-/

namespace Chip8

/-- What a shell reports when it is asked. -/
structure Poll where
  /-- What happened to the keys since the last time, the earliest event first. -/
  events : List KeyEvent
  /-- Whether the shell is still there. -/
  alive : Bool
  deriving DecidableEq, Repr

/-- The operations of a shell with states `σ`. -/
class Shell (σ : Type) where
  /-- Ask for the keys. -/
  poll : σ → Poll × σ
  /-- The screen that the shell holds. -/
  screen : σ → Screen
  /-- The same shell with another screen. -/
  withScreen : σ → Screen → σ
  /-- Show the screen. -/
  draw : σ → σ
  /-- Sound the tone; a shell without sound does nothing. -/
  beep : σ → σ := id

end Chip8
