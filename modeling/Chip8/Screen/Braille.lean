import Chip8.Screen.Picture

/-! A canvas of braille characters, each two dots wide and four dots high. -/
namespace Chip8

structure Braille where
  width : Nat
  height : Nat
  /-- The dots that were set, by column and row. -/
  dots : List (Nat × Nat)

namespace Braille

/-- The dots of a character: column, row, and value. -/
def dotValues : List (Nat × Nat × Nat) :=
  [(0, 0, 0x01), (1, 0, 0x08), (0, 1, 0x02), (1, 1, 0x10),
   (0, 2, 0x04), (1, 2, 0x20), (0, 3, 0x40), (1, 3, 0x80)]

def cellValue (b : Braille) (cx cy : Nat) : Nat :=
  dotValues.foldr (fun (dx, dy, value) n =>
    if b.dots.contains (2 * cx + dx, 4 * cy + dy) then value + n else n) 0

def cellChar (b : Braille) (cx cy : Nat) : Char :=
  if b.cellValue cx cy = 0 then ' ' else Char.ofNat (0x2800 + b.cellValue cx cy)

def empty (width height : Nat) : Braille := ⟨width, height, []⟩

def set (b : Braille) (x y : Nat) : Braille := { b with dots := (x, y) :: b.dots }

/-- There is one column and one line more than are filled. -/
def frame (b : Braille) : String :=
  "\n".intercalate ((List.range (b.height / 4 + 1)).map fun cy =>
    String.ofList ((List.range (b.width / 2 + 1)).map fun cx => b.cellChar cx cy))

def canvas : Canvas := ⟨Braille, empty, set, frame⟩

end Braille

end Chip8
