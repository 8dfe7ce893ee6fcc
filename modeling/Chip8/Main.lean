import Chip8.CommandLine.Disassembler

/-! The listing program on real files. -/
namespace Chip8.CommandLine.Disassembler

/-- The refusal behind an error of the system, if it is one of those that are told apart. Some
errors carry the system's number with its sign turned. -/
def refusal? : IO.Error → Option Disk.Refusal
  | .noFileOrDirectory _ _ _ => some .notFound
  | .inappropriateType _ code _ => some (if code = 21 then .isDirectory else .notDirectory)
  | .invalidArgument _ code _ => if code = 36 ∨ code = -36 then some .tooLong else none
  | .resourceExhausted _ _ _ => some .full
  | _ => none

def readContents (path : String) : IO (Except Disk.Refusal (List UInt8)) := do
  if path = "" then return .error .notFound
  if '\x00' ∈ path.toList then return .error .zeroInPath
  try
    return .ok (← IO.FS.readBinFile path).toList
  catch e =>
    match refusal? e with
    | some cause => return .error cause
    | none => throw e

def finish (e : Exit) : IO UInt32 := do
  IO.eprint e.err
  try
    IO.print e.out
    (← IO.getStdout).flush
    return UInt32.ofNat e.code
  catch problem =>
    match refusal? problem with
    | some cause =>
      let failure := (Failure.unwritable cause).exit
      IO.eprint failure.err
      return UInt32.ofNat failure.code
    | none => throw problem

end Chip8.CommandLine.Disassembler

open Chip8.CommandLine Chip8.CommandLine.Disassembler in
def main (arguments : List String) : IO UInt32 := do
  match grammar.parse {} arguments with
  | .error e => finish (.misuse name e)
  | .ok s =>
    if s.help then finish (.help name grammar)
    else finish (s.exit .ready (← readContents s.file))
