import Chip8.Screen

/-!
# The window

The screen is shown in a window in which every pixel is a square. The processor
makes several cycles for each frame that the window shows.
-/

namespace Chip8.Window

/-- What the window is called. -/
def title : String := "Chip8"

/-- The side of a pixel of the screen, in points of the window. -/
def pixelSize : Nat := 16

/-- The width of the window. -/
def width : Nat := Screen.width * pixelSize

/-- The height of the window. -/
def height : Nat := Screen.height * pixelSize

/-- How many cycles there are in a frame. -/
def cyclesPerFrame : Nat := 5

end Chip8.Window
