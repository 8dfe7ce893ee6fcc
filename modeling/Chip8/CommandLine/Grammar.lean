import Chip8.Text.Digits

/-! Arguments of a program: switches, options with a value, and one free argument. -/
namespace Chip8.CommandLine
open Chip8.Text

inductive UsageError where
  | unrecognized (option : String)
  | missingValue (option : String)
  | unwantedValue (option : String)
  | invalidValue (option why : String)
  | unexpectedFree (argument : String)
  | missingFree
  deriving DecidableEq

namespace UsageError

def message : UsageError → String
  | .unrecognized option => "unrecognized option `" ++ option ++ "`"
  | .missingValue option => "missing argument to option `" ++ option ++ "`"
  | .unwantedValue option => "option `" ++ option ++ "` does not accept an argument"
  | .invalidValue option why => "invalid argument to option `" ++ option ++ "`: " ++ why
  | .unexpectedFree argument => "unexpected free argument `" ++ argument ++ "`"
  | .missingFree => "missing required free argument"

end UsageError

/-- Reads a value into some settings, or says why it cannot. -/
abbrev Reader (σ : Type) := String → σ → Except String σ

inductive Action (σ : Type) where
  | switch (set : σ → σ)
  | value (name : String) (read : Reader σ)

structure Choice (σ : Type) where
  short : Char
  long : String
  action : Action σ
  help : String

/-- The options of a program, and its free argument. -/
structure Grammar (σ : Type) where
  choices : List (Choice σ)
  freeName : String
  freeHelp : String
  setFree : String → σ → σ
  /-- Whether the settings ask for help, which needs no free argument. -/
  wantsHelp : σ → Bool

structure Progress (σ : Type) where
  settings : σ
  /-- The option whose value the next argument is. -/
  awaiting : Option (String × Reader σ) := none
  /-- All further arguments are free. -/
  onlyFree : Bool := false
  hasFree : Bool := false

namespace Grammar

variable {σ : Type}

def addFree (g : Grammar σ) (p : Progress σ) (argument : String) :
    Except UsageError (Progress σ) :=
  if p.hasFree then .error (.unexpectedFree argument)
  else .ok { p with settings := g.setFree argument p.settings, hasFree := true }

def give (p : Progress σ) (option : String) (read : Reader σ) (value : String) :
    Except UsageError (Progress σ) :=
  match read value p.settings with
  | .ok settings => .ok { p with settings := settings, awaiting := none }
  | .error why => .error (.invalidValue option why)

/-- An option by its long name, whose value may stand behind an equals sign. -/
def addLong (g : Grammar σ) (p : Progress σ) (text : List Char) :
    Except UsageError (Progress σ) :=
  let name := String.ofList (text.takeWhile (· != '='))
  let option := "--" ++ name
  match g.choices.find? (·.long == name), text.dropWhile (· != '=') with
  | none, _ => .error (.unrecognized option)
  | some ⟨_, _, .switch set, _⟩, [] => .ok { p with settings := set p.settings }
  | some ⟨_, _, .switch _, _⟩, _ :: _ => .error (.unwantedValue option)
  | some ⟨_, _, .value _ read, _⟩, [] => .ok { p with awaiting := some (option, read) }
  | some ⟨_, _, .value _ read, _⟩, _ :: value => give p option read (String.ofList value)

/-- Options by their letters. The first that has a value takes the rest of the letters for it, or
else the next argument. -/
def addShort (g : Grammar σ) (p : Progress σ) : List Char → Except UsageError (Progress σ)
  | [] => .ok p
  | c :: rest =>
    let option := String.ofList ['-', c]
    match (g.choices.find? (·.short == c)).map Choice.action with
    | none => .error (.unrecognized option)
    | some (.switch set) => g.addShort { p with settings := set p.settings } rest
    | some (.value _ read) =>
      if rest.isEmpty then .ok { p with awaiting := some (option, read) }
      else give p option read (String.ofList rest)

def add (g : Grammar σ) (p : Progress σ) (argument : String) : Except UsageError (Progress σ) :=
  match p.awaiting with
  | some (option, read) => give p option read argument
  | none =>
    if p.onlyFree then g.addFree p argument
    else match argument.toList with
      | ['-'] => g.addFree p argument
      | ['-', '-'] => .ok { p with onlyFree := true }
      | '-' :: '-' :: text => g.addLong p text
      | '-' :: letters => g.addShort p letters
      | _ => g.addFree p argument

def finish (g : Grammar σ) (p : Progress σ) : Except UsageError σ :=
  match p.awaiting with
  | some (option, _) => .error (.missingValue option)
  | none =>
    if p.hasFree || g.wantsHelp p.settings then .ok p.settings else .error .missingFree

/-- Reads the arguments from left to right, up to the first error. -/
def parse (g : Grammar σ) (start : σ) (arguments : List String) : Except UsageError σ := do
  g.finish (← arguments.foldlM g.add { settings := start })

def spelling (c : Choice σ) : String :=
  "-" ++ c.short.toString ++ ", --" ++ c.long ++
    match c.action with
    | .switch _ => ""
    | .value name _ => " " ++ name

def helpRow (width : Nat) (entry : String × String) : String :=
  "  " ++ column width entry.1 ++ "  " ++ entry.2

def usage (g : Grammar σ) : String :=
  let free := (g.freeName, g.freeHelp)
  let options := g.choices.map fun c => (spelling c, c.help)
  let width := ((free :: options).map fun e => e.1.length).foldl max 0
  "\n".intercalate (["Positional arguments:", helpRow width free, "", "Optional arguments:"]
    ++ options.map (helpRow width))

end Grammar

end Chip8.CommandLine
