import Chip8.Host.Basic
import Chip8.Monitor

/-! A frontend that plays a script of commands and records what the host asks of it. -/
namespace Chip8

namespace Script

structure Scene where
  commands : List Monitor.Command := []
  closing : Option Closing := none

inductive Event where
  | polled (isOpen : Bool)
  | rendered (isOpen : Bool) (cycle lit : Nat)
  | sounded (on : Bool)
  deriving DecidableEq

end Script

structure Script where
  /-- The scenes to come. -/
  scenes : List Script.Scene
  /-- A muted frontend takes no note of the buzzer. -/
  mute : Bool
  /-- Whether the scene being played closes when it is rendered. -/
  closesAtRender : Bool := false
  events : Array Script.Event := #[]
  saved : Machine
  disk : Disk

namespace Script

def record (s : Script) (e : Event) : Script := { s with events := s.events.push e }

/-- Plays the next scene. With none left the frontend is closed. -/
def poll (s : Script) (m : Machine) : Script × Step Bool :=
  match s.scenes with
  | [] => (s.record (.polled false), .ok m false)
  | scene :: rest =>
    let r := Monitor.runAll ⟨m, s.saved, s.disk⟩ #[] scene.commands
    let s := { s with
      scenes := rest
      closesAtRender := decide (scene.closing = some .atRender)
      saved := r.1.saved
      disk := r.1.disk }
    let isOpen := decide (scene.closing ≠ some .atPoll)
    match r.2.1 with
    | .ok _ => (s.record (.polled isOpen), ⟨r.1.machine, .ok isOpen, r.2.2⟩)
    | .error f => (s, ⟨r.1.machine, .error f, r.2.2⟩)

def render (s : Script) (m : Machine) : Script × Except Fault Bool :=
  let isOpen := !s.closesAtRender
  (s.record (.rendered isOpen m.cycle m.screen.litCount), .ok isOpen)

def sound (on : Bool) (s : Script) : Script :=
  if s.mute then s else s.record (.sounded on)

instance : Frontend Script := ⟨poll, render, sound⟩

end Script

end Chip8
