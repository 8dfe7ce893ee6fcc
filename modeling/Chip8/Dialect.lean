import Chip8.Fault

/-! The points on which interpreters differ, and the named selections of them. -/
namespace Chip8
open Chip8.Text

inductive Mode where
  | chip8 | vip
  deriving DecidableEq

namespace Mode

/-- The names a mode is known by, in lower case. -/
def ofLowerName? : String → Option Mode
  | "chip8" | "chip-8" => some .chip8
  | "vip" | "cosmac" | "cosmac-vip" => some .vip
  | _ => none

/-- Folding ASCII letters is enough: no other letter has a lower case among the letters of these
names. -/
def ofName? (text : String) : Option Mode := ofLowerName? (text.map Char.toLower)

def ofName (text : String) : Except Fault Mode :=
  (ofName? text).elim (.error (.noSuchMode text)) .ok

/-- The mode in which most programs are meant to run. -/
def standard : Mode := .chip8

def inspect : Mode → String
  | .chip8 => "Chip8"
  | .vip => "Vip"

end Mode

structure Dialect where
  /-- Shifts take `vY` instead of `vX`. -/
  shift : Bool := false
  /-- Storing or fetching registers moves `I` past them. -/
  dmaInc : Bool := false
  /-- Bitwise operations set `vF` to zero. -/
  vfReset : Bool := false
  /-- Sprites come back on the other side instead of being cut off at the edge. -/
  screenWrap : Bool := false
  deriving DecidableEq, Ord

namespace Dialect

/-- The first three points together. Sprites are cut off either way. -/
def preset (on : Bool) : Dialect := { shift := on, dmaInc := on, vfReset := on }

def ofMode : Mode → Dialect
  | .chip8 => preset false
  | .vip => preset true

def inspect (d : Dialect) : String :=
  record "Quirks" [
    ("shift", bool d.shift), ("dma_inc", bool d.dmaInc),
    ("vf_reset", bool d.vfReset), ("screen_wrap", bool d.screenWrap)]

end Dialect

end Chip8
