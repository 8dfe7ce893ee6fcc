import Chip8.Machine.Notice
import Chip8.Processor.Execute

/-! A processor runs tick by tick. It goes on behind an instruction before that is executed, and
back onto it if that fails. -/
namespace Chip8.Processor

/-- What is left after something was done to a processor, whether it failed or not. -/
structure Effect (α : Type) where
  processor : Processor
  result : Except Fault α
  notices : Array Notice := #[]

def Effect.after {α : Type} (notices : Array Notice) (e : Effect α) : Effect α :=
  { e with notices := notices ++ e.notices }

def checkBreakpoints (p : Processor) (notices : Array Notice) : Effect Unit :=
  if !p.breakpoints.isEmpty && p.breakpoints.contains p.pc then
    ⟨{ p with flags.pause := true }, .error (.breakpoint p.pc (p.memory.word p.pc.toNat)), notices⟩
  else ⟨p, .ok (), notices⟩

def count (p : Processor) (notices : Array Notice) : Effect Unit :=
  { p with cycle := p.cycle + 1 }.checkBreakpoints notices

def tickBlocked (p : Processor) (x : Nat) : Effect Unit :=
  let taken := p.keys.takePress
  let p := { p with keys := taken.2 }
  match taken.1 with
  | some key => (p.finishWait x key).count #[]
  | none => ⟨p, .ok (), #[]⟩

/-- Fetches, shows, decodes and executes the word at `pc`. -/
def tickRunning (p : Processor) : Effect Unit :=
  let pc := p.pc
  let word := p.memory.word pc.toNat
  let shown : Array Notice := if p.flags.debug then #[.traced p.cycle pc word] else #[]
  match Instruction.decode word with
  | none =>
    if p.flags.lenient then
      { p with pc := wrapWord (pc + 2) }.count (shown.push (.skipped word pc))
    else ⟨p, .error (.unrecognized word pc), shown⟩
  | some i =>
    let told := shown.push (.executing pc i)
    let executed := { p with pc := wrapWord (pc + 2) }.execute i
    match executed.1 with
    | .error f => ⟨{ executed.2 with pc := pc }, .error f, told⟩
    | .ok _ => executed.2.count told

/-- Does one thing, unless the processor is paused. -/
def tick (p : Processor) : Effect Unit :=
  if p.flags.pause then ⟨p, .ok (), #[]⟩
  else match p.state with
    | .blockedOnKey x => p.tickBlocked x
    | .running => p.tickRunning

/-- Ticks even if paused, and is paused afterwards. -/
def singlestep (p : Processor) : Effect Unit :=
  let e := { p with flags.pause := false }.tick
  { e with processor.flags.pause := true }

/-- Goes on with `n` ticks, up to the first that fails, after what was told before them. -/
def continueFor (p : Processor) (notices : Array Notice) : Nat → Effect Unit
  | 0 => ⟨p, .ok (), notices⟩
  | n + 1 =>
    let e := p.tick.after notices
    match e.result with
    | .error _ => e
    | .ok _ => e.processor.continueFor e.notices n

def multistep (p : Processor) (n : Nat) : Effect Unit := p.continueFor #[] n

end Chip8.Processor
