import Chip8.CommandLine.Exit
import Chip8.Text.Escape.Quoted
import Chip8.Text.Numeral
import Chip8.Window.Viewer

/-! The program that runs a file in a window. -/
namespace Chip8.CommandLine.Emulator
open Chip8.Text

structure Settings where
  file : String := ""
  help : Bool := false
  debug : Bool := false
  pause : Bool := false
  lenient : Bool := false
  mode : Option Mode := none
  vfReset : Bool := false
  memory : Bool := false
  shift : Bool := false
  wrap : Bool := false
  breakpoints : List UInt16 := []
  seed : Option UInt64 := none
  ipf : Nat := Host.defaultIpf
  rate : Nat := Host.defaultRate
  deriving DecidableEq

def name : String := "peep"

def counting (set : Nat → Settings → Settings) : Reader Settings := fun text s =>
  match readCount text with
  | .ok n => .ok (set n s)
  | .error e => .error e.message

def readMode : Reader Settings := fun text s =>
  match Mode.ofName text with
  | .ok m => .ok { s with mode := some m }
  | .error f => .error f.message

/-- Each breakpoint is added to those before it. -/
def readBreak : Reader Settings := fun text s =>
  match readHexWord text with
  | .ok a => .ok { s with breakpoints := s.breakpoints ++ [a] }
  | .error e => .error e.message

def grammar : Grammar Settings where
  choices := [
    ⟨'h', "help", .switch fun s => { s with help := true }, "Print this help message."⟩,
    ⟨'d', "debug", .switch fun s => { s with debug := true }, "Enable debug mode at startup."⟩,
    ⟨'p', "pause", .switch fun s => { s with pause := true }, "Enable pause mode at startup."⟩,
    ⟨'l', "lenient", .switch fun s => { s with lenient := true },
      "Skip unrecognized instructions instead of stopping."⟩,
    ⟨'m', "mode", .value "MODE" readMode, "Run in (Chip8, VIP) mode."⟩,
    ⟨'z', "vfreset", .switch fun s => { s with vfReset := true },
      "Toggle setting vF to 0 after a bitwise operation."⟩,
    ⟨'c', "memory", .switch fun s => { s with memory := true },
      "Toggle incrementing I after DMA instructions."⟩,
    ⟨'v', "shift", .switch fun s => { s with shift := true },
      "Toggle shifting vY instead of vX."⟩,
    ⟨'w', "wrap", .switch fun s => { s with wrap := true },
      "Wrap sprites around the edges of the screen."⟩,
    ⟨'b', "break", .value "BP" readBreak, "Set breakpoints for the emulator to stop at."⟩,
    ⟨'s', "seed", .value "SEED" (counting fun n s => { s with seed := some (UInt64.ofNat n) }),
      "Seed the random number generator."⟩,
    ⟨'i', "ipf", .value "N" (counting fun n s => { s with ipf := n }),
      "Set the instructions-per-frame rate."⟩,
    ⟨'f', "frame-rate", .value "FR" (counting fun n s => { s with rate := n }),
      "Set the target framerate."⟩]
  freeName := "file"
  freeHelp := "Load a ROM to run on Peep."
  setFree := fun file s => { s with file := file }
  wantsHelp := Settings.help

namespace Settings

def inspect (s : Settings) : String :=
  record "Arguments" [
    ("file", quoted s.file), ("help", bool s.help), ("debug", bool s.debug),
    ("pause", bool s.pause), ("lenient", bool s.lenient),
    ("mode", option (s.mode.map Mode.inspect)),
    ("vfreset", bool s.vfReset), ("memory", bool s.memory), ("shift", bool s.shift),
    ("wrap", bool s.wrap), ("breakpoints", numbers (s.breakpoints.map UInt16.toNat)),
    ("seed", option (s.seed.map fun n => n.toNat.repr)),
    ("ipf", s.ipf.repr), ("frame_rate", s.rate.repr)]

/-- The dialect of the mode, in which the given points are turned around. -/
def dialect (s : Settings) : Dialect :=
  let d := Dialect.ofMode (s.mode.getD .standard)
  { shift := d.shift ^^ s.shift
    dmaInc := d.dmaInc ^^ s.memory
    vfReset := d.vfReset ^^ s.vfReset
    screenWrap := d.screenWrap ^^ s.wrap }

def flags (s : Settings) : Flags :=
  { debug := s.debug, pause := s.pause, lenient := s.lenient, dialect := s.dialect }

def machine (s : Settings) (disk : Disk) : Except Fault Machine :=
  let loaded := (Machine.boot s.flags (.ofSeed (s.seed.getD 0))).loadFile disk s.file
  loaded.result.map fun _ => s.breakpoints.foldl Machine.setBreak loaded.machine

end Settings

inductive Desktop where
  | frames (upcoming : List Window.Frame)
  | noWindow

/-- How the program ended, and what it asked of its window. -/
structure Session where
  exit : Exit
  requests : Array Window.Request := #[]

def faultLine (f : Fault) : String :=
  Colour.red.ink (escape [1] ++ f.message ++ escape [0]) ++ "\n"

def failed (f : Fault) (notices : Array Notice) : Exit :=
  { code := 1, out := Notice.outputOf notices, err := Notice.dialogueOf notices ++ faultLine f }

def succeeded (notices : Array Notice) : Exit :=
  { code := 0, out := Notice.outputOf notices, err := Notice.dialogueOf notices }

/-- Runs a machine in a window. Every frame uses up one of those to come, and without one the
window is closed, so the limit is never met. -/
def play (s : Settings) (m : Machine) (upcoming : List Window.Frame) : Session :=
  let window : Window := { upcoming := upcoming, requests := #[.create Viewer.settings] }
  let host := ((Host.new m ({ window := window } : Viewer)).withIpf s.ipf).withRate s.rate
  match host.runFor? #[] (upcoming.length + 1) with
  | none => ⟨succeeded #[], window.requests⟩
  | some o =>
    let requests := o.host.frontend.window.requests
    match o.result with
    | .ok _ => ⟨succeeded o.notices, requests⟩
    | .error f => ⟨failed f o.notices, requests⟩

def Settings.session (s : Settings) (disk : Disk) (desktop : Desktop) : Session :=
  match s.machine disk, desktop with
  | .error f, _ => ⟨failed f #[], #[]⟩
  | .ok _, .noWindow => ⟨failed (.window .create) #[], #[.create Viewer.settings]⟩
  | .ok m, .frames upcoming => play s m upcoming

def run (arguments : List String) (disk : Disk) (desktop : Desktop) : Session :=
  match grammar.parse {} arguments with
  | .error e => ⟨.misuse name e, #[]⟩
  | .ok s => if s.help then ⟨.help name grammar, #[]⟩ else s.session disk desktop

end Chip8.CommandLine.Emulator
