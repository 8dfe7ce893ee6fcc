import Chip8.Text.Record

/-! A small store of files in folders, and the reasons why a file cannot be read or written. -/
namespace Chip8
open Chip8.Text

namespace Disk

inductive Refusal where
  | notFound | notDirectory | isDirectory | full | tooLong
  /-- The path has a zero character, where the system takes a path to end. -/
  | zeroInPath
  deriving DecidableEq

namespace Refusal

/-- The system's number for the refusal, if the system was asked at all. -/
def code? : Refusal → Option Nat
  | .notFound => some 2
  | .notDirectory => some 20
  | .isDirectory => some 21
  | .full => some 28
  | .tooLong => some 36
  | .zeroInPath => none

def kind : Refusal → String
  | .notFound => "NotFound"
  | .notDirectory => "NotADirectory"
  | .isDirectory => "IsADirectory"
  | .full => "StorageFull"
  | .tooLong => "InvalidFilename"
  | .zeroInPath => "InvalidInput"

def reason : Refusal → String
  | .notFound => "No such file or directory"
  | .notDirectory => "Not a directory"
  | .isDirectory => "Is a directory"
  | .full => "No space left on device"
  | .tooLong => "File name too long"
  | .zeroInPath => "file name contained an unexpected NUL byte"

def message (r : Refusal) : String :=
  match r.code? with
  | some code => r.reason ++ " (os error " ++ code.repr ++ ")"
  | none => r.reason

def inspect (r : Refusal) : String :=
  let fields := [("kind", r.kind), ("message", "\"" ++ r.reason ++ "\"")]
  match r.code? with
  | some code => record "Os" (("code", code.repr) :: fields)
  | none => record "Error" fields

end Refusal

/-- What a path leads to. A folder is known by the names that lead to it, innermost first. -/
inductive Node where
  | folder (path : List String)
  | file (bytes : List UInt8)
  /-- A folder above the current one, of which nothing is known. -/
  | outside

end Disk

/-- Files and folders below the current one, each with the names that lead to it, the innermost
first. -/
structure Disk where
  folders : List (List String) := []
  files : List (List String × List UInt8) := []

namespace Disk

def child? (d : Disk) (path : List String) (name : String) : Option Node :=
  if d.folders.contains (name :: path) then some (.folder (name :: path))
  else (d.files.find? fun f => f.1 == name :: path).map fun f => .file f.2

def parent : List String → Node
  | [] => .outside
  | _ :: path => .folder path

def nameLimit : Nat := 255

def pathLimit : Nat := 4095

/-- One part of a path. Only a folder can be gone on from, and a name's length matters only once
there is a folder to look it up in. -/
def enter (d : Disk) (part : String) : Node → Except Refusal Node
  | .file _ => .error .notDirectory
  | .outside =>
    if part ∈ ["", ".", ".."] then .ok .outside
    else if nameLimit < part.utf8ByteSize then .error .tooLong
    else .error .notFound
  | .folder path =>
    if part = "" ∨ part = "." then .ok (.folder path)
    else if part = ".." then .ok (parent path)
    else if nameLimit < part.utf8ByteSize then .error .tooLong
    else (d.child? path part).elim (.error .notFound) .ok

def parts (path : String) : List String := path.splitOn "/"

/-- Follows a path from the current folder, or from above it if the path starts with a slash. The
empty path leads nowhere. -/
def follow (d : Disk) (path : String) : Except Refusal Node :=
  match parts path with
  | [""] => .error .notFound
  | "" :: rest => rest.foldlM (fun node part => d.enter part node) .outside
  | parts => parts.foldlM (fun node part => d.enter part node) (.folder [])

/-- The path as a whole is looked at before any of its parts. -/
def find (d : Disk) (path : String) : Except Refusal Node :=
  if '\x00' ∈ path.toList then .error .zeroInPath
  else if pathLimit < path.utf8ByteSize then .error .tooLong
  else d.follow path

def read (d : Disk) (path : String) : Except Refusal (List UInt8) :=
  match d.find path with
  | .ok (.file bytes) => .ok bytes
  | .ok _ => .error .isDirectory
  | .error r => .error r

def write (d : Disk) (path : String) (bytes : List UInt8) : Disk :=
  let names := (parts path).foldl (fun names part =>
    if part = "" ∨ part = "." then names else if part = ".." then names.tail else part :: names) []
  { d with files := (names, bytes) :: d.files.filter fun f => f.1 != names }

end Disk

end Chip8
