import Chip8.Machine.Operation
import Chip8.Processor.Step

/-! The operations that a processor offers, which are those of a machine. -/
namespace Chip8.Processor

variable (p : Processor)

def setKey (key : Nat) (down : Bool) : Effect Bool :=
  let moved := p.keys.setKey key down
  ⟨{ p with keys := moved.2 }, moved.1, #[]⟩

def setV (register : Nat) (b : UInt8) : Effect Unit :=
  if register < 16 then ⟨{ p with v := p.v.setAt register b }, .ok (), #[]⟩
  else ⟨p, .error (.noSuchRegister register), #[]⟩

def load (program : List UInt8) : Effect Unit :=
  if Region.program.size < program.length then
    ⟨p, .error (.tooLarge program.length .program), #[]⟩
  else
    let loaded := (p.memory.clearRegion .program).loadRegion .program program
    let p := { p with memory := loaded.2 }
    match loaded.1 with
    | .error f => ⟨p, .error f, #[]⟩
    | .ok _ => ⟨{ p with program := program }, .ok (), #[.loaded program.length]⟩

/-- Flags, breakpoints and random numbers stay. -/
def reset : Effect Unit :=
  ⟨{ p with
      memory := Memory.fresh.writeBytes entry.toNat p.program
      screen := .blank
      keys := .released
      timers := {}
      stack := #[]
      pc := entry
      i := 0
      v := .zero
      state := .running
      cycle := 0 },
    .ok (), #[.restarted]⟩

def setBreak (a : UInt16) : Processor :=
  if p.breakpoints.contains a then p else { p with breakpoints := p.breakpoints ++ [a] }

def unsetBreak (a : UInt16) : Processor :=
  { p with breakpoints := Machine.without a p.breakpoints }

def Effect.answer {α : Type} (f : α → Operation.Answer) (e : Effect α) : Effect Operation.Answer :=
  ⟨e.processor, e.result.map f, e.notices⟩

def apply : Operation → Effect Operation.Answer
  | .tick => p.tick.answer fun _ => .done
  | .singlestep => p.singlestep.answer fun _ => .done
  | .multistep n => (p.multistep n).answer fun _ => .done
  | .tickTimers => ⟨{ p with timers := p.timers.tick }, .ok .done, #[]⟩
  | .setKey key down => (p.setKey key down).answer .changed
  | .setV register b => (p.setV register b).answer fun _ => .done
  | .load program => (p.load program).answer fun _ => .done
  | .reset => p.reset.answer fun _ => .done
  | .setBreak a => ⟨p.setBreak a, .ok .done, #[]⟩
  | .unsetBreak a => ⟨p.unsetBreak a, .ok .done, #[]⟩
  | .reseed seed => ⟨{ p with random := .ofSeed seed }, .ok .done, #[]⟩
  | .setFlags flags => ⟨{ p with flags := flags }, .ok .done, #[]⟩

/-- The processor after some operations, whatever they answered. -/
def run (ops : List Operation) : Processor :=
  ops.foldl (fun p op => (p.apply op).processor) p

/-- The processors that operations can lead to from one that was just switched on. -/
def Reachable : Prop :=
  ∃ (random : Keystream) (ops : List Operation), (boot {} random).run ops = p

end Chip8.Processor
