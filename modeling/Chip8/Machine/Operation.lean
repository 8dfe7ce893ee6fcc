import Chip8.Machine.Step

/-! The operations that a machine offers to those who run it. -/
namespace Chip8
namespace Machine

def setKey (m : Machine) (key : Nat) (down : Bool) : Step Bool :=
  match m.keypad.setKey key down with
  | .ok moved => .ok { m with keypad := moved.2 } moved.1
  | .error f => .fail m f

def setV (m : Machine) (register : Nat) (b : UInt8) : Step Unit :=
  if h : register < 16 then .ok (m.setRegister ⟨register, h⟩ b) ()
  else .fail m (.noSuchRegister register)

/-- Puts a program into memory, with zeros behind it, and remembers it. -/
def load (m : Machine) (program : List UInt8) : Step Unit :=
  if Region.program.size < program.length then .fail m (.tooLarge program.length .program)
  else
    let loaded := (m.memory.clearRegion .program).loadRegion .program program
    let m := { m with memory := loaded.2 }
    match loaded.1 with
    | .error f => .fail m f
    | .ok _ => ⟨{ m with program := program }, .ok (), #[.loaded program.length]⟩

def loadFile (m : Machine) (disk : Disk) (path : String) : Step Unit :=
  match disk.read path with
  | .ok program => m.load program
  | .error cause => .fail m (.unreadable path cause)

/-- The machine with its program at the start again. Flags, breakpoints and random numbers stay. -/
def restarted (m : Machine) : Machine :=
  { m with
    memory := Memory.fresh.writeBytes entry.toNat m.program
    screen := .blank
    keypad := .released
    timers := {}
    stack := []
    pc := entry
    i := 0
    v := .zero
    activity := .running
    cycle := 0 }

def reset (m : Machine) : Step Unit := ⟨m.restarted, .ok (), #[.restarted]⟩

end Machine

inductive Operation where
  | tick
  | singlestep
  | multistep (n : Nat)
  | tickTimers
  | setKey (key : Nat) (down : Bool)
  | setV (register : Nat) (b : UInt8)
  | load (program : List UInt8)
  | reset
  | setBreak (a : UInt16)
  | unsetBreak (a : UInt16)
  | reseed (seed : UInt64)
  | setFlags (flags : Flags)
  deriving DecidableEq

namespace Operation

inductive Answer where
  | done
  | changed (b : Bool)
  deriving DecidableEq

def answer {α : Type} (f : α → Answer) (s : Step α) : Step Answer :=
  ⟨s.machine, s.result.map f, s.notices⟩

def apply (m : Machine) : Operation → Step Answer
  | .tick => answer (fun _ => .done) m.tick
  | .singlestep => answer (fun _ => .done) m.singlestep
  | .multistep n => answer (fun _ => .done) (m.multistep n)
  | .tickTimers => .ok m.tickTimers .done
  | .setKey key down => answer .changed (m.setKey key down)
  | .setV register b => answer (fun _ => .done) (m.setV register b)
  | .load program => answer (fun _ => .done) (m.load program)
  | .reset => answer (fun _ => .done) m.reset
  | .setBreak a => .ok (m.setBreak a) .done
  | .unsetBreak a => .ok (m.unsetBreak a) .done
  | .reseed seed => .ok (m.reseed seed) .done
  | .setFlags flags => .ok { m with flags := flags } .done

/-- The machine after some operations, whatever they answered. -/
def run (m : Machine) (ops : List Operation) : Machine :=
  ops.foldl (fun m op => (op.apply m).machine) m

end Operation

/-- The machines that operations can lead to from one that was just switched on. -/
def Machine.Reachable (m : Machine) : Prop :=
  ∃ (random : Keystream) (ops : List Operation), Operation.run (.boot {} random) ops = m

end Chip8
