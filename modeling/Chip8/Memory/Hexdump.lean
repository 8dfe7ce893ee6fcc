import Chip8.Memory.Basic
import Chip8.Text.Digits
import Chip8.Text.Record
import Chip8.Text.Style

/-! The whole of memory as text: 256 rows of an address and sixteen bytes. -/
namespace Chip8.Memory
open Chip8.Text

/-- Addresses stand out in bold green on black. -/
def addressStyle : Style := { foreground := some .green, background := some .black, bold := true }

/-- What follows the byte in column `k` of a row. -/
def gap (k : Nat) : String :=
  if k = 15 then "\n"
  else if k = 7 then "  "
  else if k % 2 = 1 then " "
  else ""

def dumpRow (m : Memory) (r : Nat) : String :=
  addressStyle.paint (hex 3 (16 * r)) ++ addressStyle.paint ":" ++ " "
    ++ String.join ((List.range 16).map fun k => hex 2 (m.read (16 * r + k)).toNat ++ gap k)

def hexdump (m : Memory) : String := String.join ((List.range 256).map m.dumpRow)

/-- The short text of a memory tells only its size. -/
def inspect (_ : Memory) : String := openRecord "Mem" [("len", size.repr)]

end Chip8.Memory
