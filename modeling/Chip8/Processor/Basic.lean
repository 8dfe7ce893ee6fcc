import Chip8.Machine.Basic

/-! A processor that works in place on words of its own size. Addresses have sixteen bits and are
wrapped by hand, and what waits for a key or was pressed first is told by a number. -/
namespace Chip8

/-- An address brought back into the 4096 bytes of memory. -/
def wrapWord (a : UInt16) : UInt16 := a % 4096

/-- The sixteen keys, and the number of the first that went down. -/
structure KeyRow where
  held : Vector Bool 16
  latch : Option Nat
  deriving DecidableEq

namespace KeyRow

def released : KeyRow := ⟨Vector.replicate 16 false, none⟩

/-- Keys that do not exist are never held. -/
def isPressed (k : KeyRow) (n : Nat) : Bool := k.held[n]?.getD false

def setKey (k : KeyRow) (n : Nat) (down : Bool) : Except Fault Bool × KeyRow :=
  match k.held[n]? with
  | none => (.error (.noSuchKey n), k)
  | some before =>
    if before = down then (.ok false, k)
    else
      let k := { k with held := k.held.setIfInBounds n down }
      if down && k.latch.isNone then (.ok true, { k with latch := some n }) else (.ok true, k)

def arm (k : KeyRow) : KeyRow := { k with latch := none }

def takePress (k : KeyRow) : Option Nat × KeyRow := (k.latch, { k with latch := none })

end KeyRow

def Registers.setAt (v : Registers) (n : Nat) (b : UInt8) : Registers :=
  ⟨v.cells.setIfInBounds n b⟩

namespace Processor

inductive State where
  | running
  | blockedOnKey (register : Nat)
  deriving DecidableEq

end Processor

structure Processor where
  flags : Flags
  memory : Memory
  screen : Screen
  keys : KeyRow
  timers : Timers
  /-- Return addresses, the oldest first. -/
  stack : Array UInt16
  pc : UInt16
  i : UInt16
  v : Registers
  state : Processor.State
  cycle : Nat
  breakpoints : List UInt16
  program : List UInt8
  random : Keystream

namespace Processor

def entry : UInt16 := 0x200

def boot (flags : Flags) (random : Keystream) : Processor where
  flags := flags
  memory := .fresh
  screen := .blank
  keys := .released
  timers := {}
  stack := #[]
  pc := entry
  i := 0
  v := .zero
  state := .running
  cycle := 0
  breakpoints := []
  program := []
  random := random

end Processor

end Chip8
