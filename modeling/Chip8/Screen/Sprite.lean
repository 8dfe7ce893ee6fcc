import Chip8.Screen.Basic

/-! Sprites: eight pixels wide, one byte to a row. Drawing one flips the pixels it covers. -/
namespace Chip8.Screen

/-- Flips the pixels under the given cells of a row, from left to right. Unless the sprite comes
back on the other side, it ends at the right edge. -/
def drawRow (wrap : Bool) (x y : Nat) (row : UInt8) : List Nat → Screen → Bool × Screen
  | [], s => (false, s)
  | bit :: bits, s =>
    if width ≤ x + bit && !wrap then (false, s)
    else if row &&& bitMask bit != 0 then
      let hit := s.toggle (.wrapped (x + bit) y)
      let later := drawRow wrap x y row bits hit.2
      (hit.1 || later.1, later.2)
    else drawRow wrap x y row bits s

/-- Draws row after row, down to the lower edge unless the sprite comes back at the top. -/
def drawRows (wrap : Bool) (x y : Nat) : List UInt8 → Screen → Bool × Screen
  | [], s => (false, s)
  | row :: rest, s =>
    if height ≤ y && !wrap then (false, s)
    else
      let hit := drawRow wrap x y row (List.range 8) s
      let later := drawRows wrap x (y + 1) rest hit.2
      (hit.1 || later.1, later.2)

/-- Draws a sprite with its corner at `(x, y)` modulo the size of the screen, and tells whether
a lit pixel went dark. -/
def draw (s : Screen) (x y : Nat) (sprite : List UInt8) (wrap : Bool) : Bool × Screen :=
  drawRows wrap (x % width) (y % height) sprite s

end Chip8.Screen
