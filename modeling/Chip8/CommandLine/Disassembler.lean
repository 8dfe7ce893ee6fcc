import Chip8.CommandLine.Exit
import Chip8.Disk
import Chip8.Listing
import Chip8.Text.Escape.Quoted
import Chip8.Text.Numeral

/-! The program that prints the listing of a file. -/
namespace Chip8.CommandLine.Disassembler
open Chip8.Text

structure Settings where
  help : Bool := false
  file : String := ""
  loadAddress : UInt16 := 0x200
  offset : Nat := 0
  plain : Bool := false
  deriving DecidableEq

def name : String := "peep-disasm"

def readLoadAddress : Reader Settings := fun text s =>
  match readHexWord text with
  | .ok a => .ok { s with loadAddress := a }
  | .error e => .error e.message

def readOffset : Reader Settings := fun text s =>
  match readCount text with
  | .ok n => .ok { s with offset := n }
  | .error e => .error e.message

def grammar : Grammar Settings where
  choices := [
    ⟨'h', "help", .switch fun s => { s with help := true }, "Show help text"⟩,
    ⟨'l', "loadaddr", .value "LOADADDR" readLoadAddress,
      "Load address (usually 200) (default: 200)"⟩,
    ⟨'o', "offset", .value "OFFSET" readOffset, "Start disassembling at offset..."⟩,
    ⟨'p', "plain", .switch fun s => { s with plain := true }, "Print without color"⟩]
  freeName := "file"
  freeHelp := "Load a ROM to disassemble"
  setFree := fun file s => { s with file := file }
  wantsHelp := Settings.help

def palette (s : Settings) : Palette := if s.plain then .plain else .coloured

def lines (s : Settings) (program : List UInt8) : List String :=
  Listing.ofProgram (palette s) program s.loadAddress.toNat s.offset

inductive Sink where
  | ready
  /-- Takes not even one line. -/
  | full
  deriving DecidableEq

inductive Failure where
  | unreadable (path : String) (cause : Disk.Refusal)
  | unwritable (cause : Disk.Refusal)
  deriving DecidableEq

def Failure.inspect : Failure → String
  | .unreadable path cause => record "RomRead" [("path", quoted path), ("source", cause.inspect)]
  | .unwritable cause => "IoError(" ++ cause.inspect ++ ")"

/-- What is written, or why it cannot be. -/
def listing (sink : Sink) (s : Settings) (contents : Except Disk.Refusal (List UInt8)) :
    Except Failure (List String) :=
  match contents with
  | .error cause => .error (.unreadable s.file cause)
  | .ok program =>
    let out := lines s program
    if sink = .full ∧ out ≠ [] then .error (.unwritable .full) else .ok out

def Failure.exit (f : Failure) : Exit := { code := 1, err := "Error: " ++ f.inspect ++ "\n" }

def Settings.exit (s : Settings) (sink : Sink) (contents : Except Disk.Refusal (List UInt8)) :
    Exit :=
  match listing sink s contents with
  | .ok out => { code := 0, out := String.join out }
  | .error f => f.exit

def run (arguments : List String) (disk : Disk) (sink : Sink) : Exit :=
  match grammar.parse {} arguments with
  | .error e => .misuse name e
  | .ok s => if s.help then .help name grammar else s.exit sink (disk.read s.file)

end Chip8.CommandLine.Disassembler
