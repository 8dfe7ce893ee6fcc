import Chip8.Machine.Execute
import Chip8.Machine.Notice

/-! A machine runs tick by tick. Whatever a tick comes to, there is a machine after it. -/
namespace Chip8

structure Step (α : Type) where
  machine : Machine
  result : Except Fault α
  notices : Array Notice := #[]

namespace Step

def ok {α : Type} (m : Machine) (a : α) : Step α := ⟨m, .ok a, #[]⟩

def fail {α : Type} (m : Machine) (f : Fault) : Step α := ⟨m, .error f, #[]⟩

/-- With earlier notices before its own. -/
def after {α : Type} (notices : Array Notice) (s : Step α) : Step α :=
  { s with notices := notices ++ s.notices }

@[simp] theorem machine_after {α : Type} (notices : Array Notice) (s : Step α) :
    (s.after notices).machine = s.machine := rfl

@[simp] theorem result_after {α : Type} (notices : Array Notice) (s : Step α) :
    (s.after notices).result = s.result := rfl

end Step

namespace Machine

def complete (m : Machine) (notices : Array Notice) : Step Unit :=
  let m := { m with cycle := m.cycle + 1 }
  if addressWord m.pc ∈ m.breakpoints then
    ⟨{ m with flags.pause := true }, .error (.breakpoint (addressWord m.pc) m.nextWord), notices⟩
  else
    ⟨m, .ok (), notices⟩

def receiveKey (m : Machine) (x : Register) (key : Key) : Machine :=
  { m.advance.setRegister x (UInt8.ofNat key.val) with
    keypad := m.keypad.arm, activity := .running }

def tickWaiting (m : Machine) (x : Register) : Step Unit :=
  match m.keypad.takePress.1 with
  | some key => (m.receiveKey x key).complete #[]
  | none => .ok m ()

/-- Fetches, shows, decodes and executes the word at `pc`. -/
def tickRunning (m : Machine) : Step Unit :=
  let word := m.nextWord
  let pc := addressWord m.pc
  let shown : Array Notice := if m.flags.debug then #[.traced m.cycle pc word] else #[]
  match Instruction.decode word with
  | none =>
    if m.flags.lenient then m.advance.complete (shown.push (.skipped word pc))
    else ⟨m, .error (.unrecognized word pc), shown⟩
  | some i =>
    let told := shown.push (.executing pc i)
    match m.execute i with
    | .ok n => n.complete told
    | .error f => ⟨m, .error f, told⟩

def tick (m : Machine) : Step Unit :=
  if m.flags.pause then .ok m ()
  else match m.activity with
    | .running => m.tickRunning
    | .awaitingKey x => m.tickWaiting x

def singlestep (m : Machine) : Step Unit :=
  let s := { m with flags.pause := false }.tick
  { s with machine.flags.pause := true }

/-- Goes on with `n` more ticks, up to the first that fails. -/
def continueFor : Nat → Step Unit → Step Unit
  | 0, s => s
  | n + 1, s =>
    match s.result with
    | .ok _ => continueFor n (s.machine.tick.after s.notices)
    | .error _ => s

/-- Ticks `n` times, or up to the first tick that fails. -/
def multistep (m : Machine) (n : Nat) : Step Unit := continueFor n (.ok m ())

theorem tick_of_pause {m : Machine} (h : m.flags.pause = true) : m.tick = .ok m () := by
  simp [tick, h]

theorem continueFor_of_error {s : Step Unit} {f : Fault} (n : Nat) (h : s.result = .error f) :
    continueFor n s = s := by
  cases n with
  | zero => rfl
  | succ n => simp [continueFor, h]

theorem continueFor_of_ok {s : Step Unit} (n : Nat) (h : s.result = .ok ()) :
    continueFor (n + 1) s = continueFor n (s.machine.tick.after s.notices) := by
  simp [continueFor, h]

end Machine

end Chip8
