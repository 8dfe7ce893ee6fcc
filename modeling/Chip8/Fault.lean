import Chip8.Disk
import Chip8.Memory.Region
import Chip8.Text.Digits

/-! What can go wrong, and how it is told. -/
namespace Chip8
open Chip8.Text

inductive WindowRefusal where
  | create | update
  deriving DecidableEq

def WindowRefusal.message : WindowRefusal → String
  | .create => "Failed to create window"
  | .update => "Failed to Update"

inductive Fault where
  /-- The machine stopped before the word `next`, which stands at a breakpoint. -/
  | breakpoint (address next : UInt16)
  | unrecognized (word pc : UInt16)
  | stackOverflow (pc : UInt16) (depth : Nat)
  | stackUnderflow (pc : UInt16)
  | tooLarge (size : Nat) (region : Region)
  | unreadable (path : String) (cause : Disk.Refusal)
  | noSuchKey (key : Nat)
  | noSuchRegister (register : Nat)
  | noSuchMode (text : String)
  | window (cause : WindowRefusal)
  deriving DecidableEq

namespace Fault

def message : Fault → String
  | .breakpoint address next =>
    "breakpoint hit: " ++ hex 3 address.toNat ++ " (" ++ hex 4 next.toNat ++ ")"
  | .unrecognized word pc =>
    "opcode " ++ hex 4 word.toNat ++ " at " ++ hex 3 pc.toNat ++ " not recognized"
  | .stackOverflow pc depth =>
    "stack overflow: call at " ++ hex 3 pc.toNat ++ " exceeds " ++ depth.repr ++ " levels"
  | .stackUnderflow pc =>
    "stack underflow: ret at " ++ hex 3 pc.toNat ++ " with an empty stack"
  | .tooLarge size region =>
    size.repr ++ " byte program does not fit in " ++ region.name
      ++ " (" ++ region.size.repr ++ " bytes)"
  | .unreadable path cause => "could not read " ++ path ++ ": " ++ cause.message
  | .noSuchKey key => "tried to press key " ++ hexUpper key ++ " which does not exist"
  | .noSuchRegister register =>
    "tried to access register v" ++ hexUpper register ++ " which does not exist"
  | .noSuchMode text => "no suitable conversion of \"" ++ text ++ "\" into Mode"
  | .window cause => cause.message

/-- Whether the machine may go on after the fault as if nothing had happened. -/
def isBreakpoint : Fault → Bool
  | .breakpoint _ _ => true
  | _ => false

end Fault

end Chip8
