import Chip8.Screen.Basic

/-! The screen in the colours of a window. -/
namespace Chip8

structure Inks where
  foreground : UInt32 := 0x0011a434
  background : UInt32 := 0x001e2431
  deriving DecidableEq

structure FrameBuffer where
  inks : Inks
  pixels : Vector UInt32 2048
  deriving DecidableEq

namespace FrameBuffer

def new (inks : Inks) : FrameBuffer := ⟨inks, Vector.replicate 2048 inks.background⟩

/-- Goes through the buffer and the pixels of a screen together, and puts a new colour in place of
each old one. -/
def draw (b : FrameBuffer) (s : Screen) : FrameBuffer :=
  let colour (_ : UInt32) (lit : Bool) := if lit then b.inks.foreground else b.inks.background
  { b with pixels := Vector.zipWith colour b.pixels s.pixels }

end FrameBuffer

end Chip8
