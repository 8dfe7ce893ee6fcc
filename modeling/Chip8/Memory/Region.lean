import Chip8.Memory.Font

/-! The two named parts of memory. -/
namespace Chip8

inductive Region where
  | charset | program
  deriving DecidableEq

namespace Region

def start : Region → Nat
  | .charset => Font.start
  | .program => 0x200

def stop : Region → Nat
  | .charset => Font.start + Font.bytes.length
  | .program => 4096

def size (r : Region) : Nat := r.stop - r.start

def name : Region → String
  | .charset => "Charset"
  | .program => "Program"

end Chip8.Region
