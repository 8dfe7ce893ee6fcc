import Chip8.Screen.Basic
import Chip8.Text.Digits
import Chip8.Text.Record

/-! The screen as text, in full blocks or in braille dots. -/
namespace Chip8
open Chip8.Text

namespace Screen

/-- A byte in binary, with blocks for ones and spaces for zeros. -/
def byteText (b : UInt8) : String :=
  replaceChar '1' '█' (replaceChar '0' ' ' (binary 8 b.toNat))

/-- A row with its number, between two bars. -/
def rowText (y : Nat) (row : List UInt8) : String :=
  decimal '0' 2 y ++ "|" ++ String.join (row.map byteText) ++ "|\n"

/-- The first rows of some bytes, eight bytes to a row. -/
def rowsOf : (count : Nat) → List UInt8 → List (List UInt8)
  | 0, _ => []
  | count + 1, bytes => bytes.take 8 :: rowsOf count (bytes.drop 8)

def text (s : Screen) : String :=
  String.join ((rowsOf (s.bytes.length / 8) s.bytes).mapIdx rowText)

def inspect (s : Screen) : String := openRecord "Screen" [("lit", s.litCount.repr)]

end Screen

/-- A surface on which dots are set, and that is then shown as text. -/
structure Canvas where
  Surface : Type
  new : (width height : Nat) → Surface
  set : Surface → (x y : Nat) → Surface
  frame : Surface → String

/-- The lit pixels as dots of a canvas, and a line break. -/
def Screen.picture (canvas : Canvas) (s : Screen) : String :=
  let dotted := s.litIndices.foldl
    (fun c k => canvas.set c (k % width) (k / width)) (canvas.new width height)
  canvas.frame dotted ++ "\n"

end Chip8
