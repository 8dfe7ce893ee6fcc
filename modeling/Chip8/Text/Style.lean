/-! Colours on a terminal, as escape sequences around a text. -/
namespace Chip8.Text

inductive Colour where
  | black | red | green | grey
  deriving DecidableEq

/-- The code that selects a colour for the letters. -/
def Colour.foreground : Colour → Nat
  | .black => 30
  | .red => 31
  | .green => 32
  | .grey => 90

/-- The code that selects a colour for the ground behind them. -/
def Colour.background (c : Colour) : Nat := c.foreground + 10

structure Style where
  foreground : Option Colour := none
  background : Option Colour := none
  bold : Bool := false
  deriving DecidableEq

namespace Style

def plain : Style := {}

/-- Foreground, background, effects. -/
def codes (s : Style) : List Nat :=
  (s.foreground.map Colour.foreground).toList
    ++ (s.background.map Colour.background).toList
    ++ (if s.bold then [1] else [])

end Style

/-- Switches the terminal to the given codes. -/
def escape (codes : List Nat) : String :=
  "\x1b[" ++ ";".intercalate (codes.map Nat.repr) ++ "m"

def Style.paint (s : Style) (text : String) : String :=
  match s.codes with
  | [] => text
  | codes => escape codes ++ text ++ escape [0]

/-- The text in a colour, after which only the colour of the letters is as at the start. -/
def Colour.ink (c : Colour) (text : String) : String :=
  escape [c.foreground] ++ text ++ escape [39]

end Chip8.Text
