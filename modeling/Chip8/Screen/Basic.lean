import Chip8.Word

/-! The screen: 64 by 32 pixels, each lit or dark, and eight of them in a byte. -/
namespace Chip8

structure Pixel where
  column : Fin 64
  row : Fin 32
  deriving DecidableEq

/-- The byte with one bit set, the `k`th from the left. -/
def bitMask (k : Nat) : UInt8 := 0x80 >>> UInt8.ofNat k

namespace Pixel

/-- The pixel at some coordinates, each taken modulo the size of the screen. -/
def wrapped (x y : Nat) : Pixel :=
  ⟨⟨x % 64, Nat.mod_lt x (by decide)⟩, ⟨y % 32, Nat.mod_lt y (by decide)⟩⟩

def cell (p : Pixel) : Nat := 8 * p.row.val + p.column.val / 8

/-- The leftmost of eight pixels is in the most significant bit. -/
def mask (p : Pixel) : UInt8 := bitMask (p.column.val % 8)

theorem cell_lt (p : Pixel) : p.cell < 256 := by
  have hr := p.row.isLt
  have hc := p.column.isLt
  unfold cell
  omega

end Pixel

structure Screen where
  cells : Vector UInt8 256
  deriving DecidableEq

namespace Screen

def width : Nat := 64

def height : Nat := 32

def blank : Screen := ⟨Vector.replicate 256 0⟩

/-- The bytes row by row, eight to a row. -/
def bytes (s : Screen) : List UInt8 := s.cells.toList

def isBlank (s : Screen) : Bool := s.bytes.all (· == 0)

def lit (s : Screen) (p : Pixel) : Bool := s.cells.get ⟨p.cell, p.cell_lt⟩ &&& p.mask != 0

/-- Pixels beyond the edge are dark. -/
def get (s : Screen) (x y : Nat) : Bool :=
  if h : x < 64 ∧ y < 32 then s.lit ⟨⟨x, h.1⟩, ⟨y, h.2⟩⟩ else false

/-- Flips a pixel, and tells whether it was lit. -/
def toggle (s : Screen) (p : Pixel) : Bool × Screen :=
  let byte := s.cells.get ⟨p.cell, p.cell_lt⟩
  (byte &&& p.mask != 0, ⟨s.cells.set p.cell (byte ^^^ p.mask) p.cell_lt⟩)

def toList (s : Screen) : List Bool :=
  (List.range height).flatMap fun y => (List.range width).map fun x => s.get x y

theorem length_toList (s : Screen) : s.toList.length = 2048 := by
  simp only [toList, List.length_flatMap, List.length_map, List.length_range]
  rfl

def pixels (s : Screen) : Vector Bool 2048 := ⟨s.toList.toArray, length_toList s⟩

def litCount (s : Screen) : Nat := s.toList.count true

/-- The positions of the lit pixels among all of them, ascending. -/
def litIndices (s : Screen) : List Nat :=
  (s.toList.zipIdx.filter Prod.fst).map Prod.snd

end Chip8.Screen
