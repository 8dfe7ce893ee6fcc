import Chip8.Listing

/-! What a machine tells while it runs: lines of its log, of its output, and of its dialogue. -/
namespace Chip8
open Chip8.Text

inductive Notice where
  /-- An instruction is about to be executed. -/
  | executing (pc : UInt16) (instruction : Instruction)
  /-- A program was loaded. -/
  | loaded (size : Nat)
  /-- The program was started again. -/
  | restarted
  /-- A word that is no instruction was passed over. -/
  | skipped (word pc : UInt16)
  /-- A frame ended early at a breakpoint. -/
  | stopped (address next : UInt16)
  /-- A word is shown before it is decoded. -/
  | traced (cycle : Nat) (pc word : UInt16)
  /-- Some text was asked for. -/
  | printed (text : String)
  /-- A line for whoever works the keys. -/
  | said (line : String)
  deriving DecidableEq

namespace Notice

/-- The text column of a trace is as wide as 36 characters, with those that set colours. -/
def output : Notice → String
  | .traced cycle pc word =>
    Colour.grey.ink (decimal ' ' 3 cycle) ++ " " ++ hex 3 pc.toNat ++ ": "
      ++ column 36 (Listing.wordText .coloured word) ++ "\n"
  | .printed text => text
  | _ => ""

def dialogue : Notice → String
  | .said line => line ++ "\n"
  | _ => ""

def outputOf (notices : Array Notice) : String := String.join (notices.toList.map output)

def dialogueOf (notices : Array Notice) : String := String.join (notices.toList.map dialogue)

end Notice

end Chip8
