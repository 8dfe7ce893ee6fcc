import Chip8.Machine.Operation

/-! A host runs a machine frame by frame for a frontend that brings keys and shows the screen. -/
namespace Chip8

/-- The moments of a frame at which a frontend may close. -/
inductive Closing where
  | atPoll | atRender
  deriving DecidableEq

class Frontend (σ : Type) where
  /-- Brings input to the machine. The answer is whether the frontend is still open. -/
  poll : σ → Machine → σ × Step Bool
  /-- Shows the screen. The answer is whether the frontend is still open. -/
  render : σ → Machine → σ × Except Fault Bool
  /-- Turns the buzzer on or off. -/
  sound : Bool → σ → σ

structure Host (σ : Type) where
  machine : Machine
  frontend : σ
  /-- Instructions for each frame. -/
  ipf : Nat
  /-- Frames for each second, at least one. -/
  rate : Nat
  /-- Whether the frontend was last told to sound. -/
  beeping : Bool := false

namespace Host

variable {σ α : Type}

def defaultIpf : Nat := 10

def defaultRate : Nat := 60

def new (m : Machine) (frontend : σ) : Host σ :=
  { machine := m, frontend := frontend, ipf := defaultIpf, rate := defaultRate }

def withIpf (h : Host σ) (ipf : Nat) : Host σ := { h with ipf := ipf }

/-- Zero frames a second are taken for one. -/
def withRate (h : Host σ) (rate : Nat) : Host σ := { h with rate := max rate 1 }

structure Outcome (σ α : Type) where
  host : Host σ
  result : Except Fault α
  notices : Array Notice

/-- Lets a machine that is not paused count its timers down. -/
def tickTimers (h : Host σ) : Host σ :=
  if h.machine.flags.pause then h else { h with machine := h.machine.tickTimers }

def updateSound [Frontend σ] (h : Host σ) : Host σ :=
  let beeping := h.machine.timers.isBeeping
  if beeping = h.beeping then h
  else { h with beeping := beeping, frontend := Frontend.sound beeping h.frontend }

def present [Frontend σ] (h : Host σ) (notices : Array Notice) : Outcome σ Bool :=
  let h := h.tickTimers.updateSound
  let shown := Frontend.render h.frontend h.machine
  ⟨{ h with frontend := shown.1 }, shown.2, notices⟩

/-- The instructions of a frame and its end. A breakpoint is noted and otherwise ignored. -/
def play [Frontend σ] (h : Host σ) (notices : Array Notice) : Outcome σ Bool :=
  let s := (h.machine.multistep h.ipf).after notices
  let h := { h with machine := s.machine }
  match s.result with
  | .ok _ => h.present s.notices
  | .error (.breakpoint address next) => h.present (s.notices.push (.stopped address next))
  | .error f => ⟨h, .error f, s.notices⟩

def frame [Frontend σ] (h : Host σ) : Outcome σ Bool :=
  let polled := Frontend.poll h.frontend h.machine
  let h := { h with frontend := polled.1, machine := polled.2.machine }
  match polled.2.result with
  | .ok true => h.play polled.2.notices
  | .ok false => ⟨h, .ok false, polled.2.notices⟩
  | .error f => ⟨h, .error f, polled.2.notices⟩

/-- The next frame of a sequence that ends when the frontend closes. -/
def next [Frontend σ] (h : Host σ) : Outcome σ (Option Unit) :=
  let f := h.frame
  ⟨f.host, f.result.map fun isOpen => if isOpen then some () else none, f.notices⟩

/-- Frames until the frontend closes or one of them fails. There is no outcome when `limit` frames
are not enough. -/
def runFor? [Frontend σ] (h : Host σ) (notices : Array Notice) :
    (limit : Nat) → Option (Outcome σ Unit)
  | 0 => none
  | limit + 1 =>
    let f := h.frame
    match f.result with
    | .ok true => f.host.runFor? (notices ++ f.notices) limit
    | .ok false => some ⟨f.host, .ok (), notices ++ f.notices⟩
    | .error e => some ⟨f.host, .error e, notices ++ f.notices⟩

end Host

end Chip8
