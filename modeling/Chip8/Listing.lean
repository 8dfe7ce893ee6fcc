import Chip8.Instruction.Code
import Chip8.Instruction.Mnemonic
import Chip8.Text.Style

/-! Words and whole programs as a listing. -/
namespace Chip8
open Chip8.Text

structure Palette where
  valid : Style
  invalid : Style
  /-- The colour of the word itself, at the end of a line. -/
  raw : Option Colour
  deriving DecidableEq

namespace Palette

def plain : Palette := ⟨.plain, .plain, none⟩

def coloured : Palette :=
  ⟨{ foreground := some .green }, { foreground := some .red, bold := true }, some .grey⟩

end Palette

namespace Listing

def wordText (p : Palette) (w : UInt16) : String :=
  match Instruction.decode w with
  | some i => p.valid.paint i.mnemonic
  | none => p.invalid.paint ("inval  " ++ hex 4 w.toNat)

def line (p : Palette) (address : Nat) (w : UInt16) : String :=
  let raw := hex 4 w.toNat
  hex 3 address ++ ": " ++ wordText p w ++ " " ++ (p.raw.elim raw fun c => c.ink raw) ++ "\n"

/-- A line for each whole word, with addresses that do not wrap. -/
def lines (p : Palette) (address : Nat) : List UInt8 → List String
  | high :: low :: rest => line p address (wordOfBytes high low) :: lines p (address + 2) rest
  | _ => []

/-- The listing of a program from an offset on, where `base` is the address of its first byte. -/
def ofProgram (p : Palette) (program : List UInt8) (base offset : Nat) : List String :=
  lines p (base + min offset program.length) (program.drop (min offset program.length))

end Listing

end Chip8
