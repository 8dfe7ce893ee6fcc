import Chip8.Machine.Basic
import Chip8.Screen.Picture
import Chip8.Text.Style

/-! A machine as text: the table of its registers, and the record of its parts. -/
namespace Chip8
open Chip8.Text

def Activity.inspect : Activity → String
  | .running => "Running"
  | .awaitingKey x => record "BlockedOnKey" [("reg", x.val.repr)]

namespace Machine

def nameStyle : Style := { foreground := some .grey }

/-- A register in the table, which has four to a line. -/
def registerCell (m : Machine) (x : Register) : String :=
  nameStyle.paint ("v" ++ hexUpper x.val ++ ":") ++ " " ++ hex 2 (m.v.get x).toNat ++ " "
    ++ (if x.val % 4 = 3 then "\n" else "")

def dump (m : Machine) : String :=
  "PC: " ++ hex 4 m.pc.toNat ++ ", SP: " ++ hex 2 m.stack.length
    ++ ", I: " ++ hex 4 m.i.toNat ++ "\n"
    ++ String.join ((List.finRange 16).map m.registerCell)
    ++ "DLY: " ++ m.timers.delay.toNat.repr ++ ", SND: " ++ m.timers.sound.toNat.repr
    ++ ", CYC: " ++ decimal ' ' 6 m.cycle ++ "\n"

def inspect (m : Machine) : String :=
  openRecord "CPU" [
    ("flags", m.flags.inspect),
    ("state", m.activity.inspect),
    ("stack", numbers (m.stack.reverse.map BitVec.toNat)),
    ("pc", m.pc.toNat.repr),
    ("i", m.i.toNat.repr),
    ("v", numbers (m.v.toList.map UInt8.toNat)),
    ("timers", m.timers.inspect),
    ("keypad", m.keypad.inspect),
    ("cycle", m.cycle.repr),
    ("breakpoints", numbers (m.breakpoints.map UInt16.toNat)),
    ("screen", m.screen.inspect)]

end Machine

end Chip8
