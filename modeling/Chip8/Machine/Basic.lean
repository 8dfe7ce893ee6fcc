import Chip8.Fault
import Chip8.Flags
import Chip8.Keypad
import Chip8.Memory.Basic
import Chip8.Random.Keystream
import Chip8.Registers
import Chip8.Screen.Basic
import Chip8.Timers

/-! The state of a machine, and what can be done to it from outside between two instructions. -/
namespace Chip8

inductive Activity where
  | running
  /-- Waits for a key to put into `vX`. -/
  | awaitingKey (x : Register)
  deriving DecidableEq

structure Machine where
  flags : Flags
  memory : Memory
  screen : Screen
  keypad : Keypad
  timers : Timers
  /-- Return addresses, the newest first. -/
  stack : List Address
  pc : Address
  i : Address
  v : Registers
  activity : Activity
  /-- How many instructions have been executed. -/
  cycle : Nat
  breakpoints : List UInt16
  /-- The last program loaded. -/
  program : List UInt8
  random : Keystream

namespace Machine

/-- How many return addresses the stack can hold. -/
def stackDepth : Nat := 16

def entry : Address := 0x200

def boot (flags : Flags) (random : Keystream) : Machine where
  flags := flags
  memory := .fresh
  screen := .blank
  keypad := .released
  timers := {}
  stack := []
  pc := entry
  i := 0
  v := .zero
  activity := .running
  cycle := 0
  breakpoints := []
  program := []
  random := random

def nextWord (m : Machine) : UInt16 := m.memory.word m.pc.toNat

/-- Equal in all but the random numbers to come. -/
def Agrees (a b : Machine) : Prop :=
  a.flags = b.flags ∧ a.memory = b.memory ∧ a.screen = b.screen ∧ a.keypad = b.keypad ∧
    a.timers = b.timers ∧ a.stack = b.stack ∧ a.pc = b.pc ∧ a.i = b.i ∧ a.v = b.v ∧
    a.activity = b.activity ∧ a.cycle = b.cycle ∧ a.breakpoints = b.breakpoints ∧
    a.program = b.program

instance (a b : Machine) : Decidable (a.Agrees b) :=
  inferInstanceAs (Decidable (_ ∧ _))

def reseed (m : Machine) (seed : UInt64) : Machine := { m with random := .ofSeed seed }

def tickTimers (m : Machine) : Machine := { m with timers := m.timers.tick }

/-- Adds a breakpoint at the end of the list, unless it is there. -/
def setBreak (m : Machine) (a : UInt16) : Machine :=
  if a ∈ m.breakpoints then m else { m with breakpoints := m.breakpoints ++ [a] }

/-- The list without `a`, whose place the last entry takes. -/
def without (a : UInt16) (points : List UInt16) : List UInt16 :=
  match points.getLast? with
  | some last => if a ∈ points then points.dropLast.replace a last else points
  | none => []

def unsetBreak (m : Machine) (a : UInt16) : Machine :=
  { m with breakpoints := without a m.breakpoints }

theorem mem_setBreak (m : Machine) (a b : UInt16) :
    b ∈ (m.setBreak a).breakpoints ↔ b = a ∨ b ∈ m.breakpoints := by
  unfold setBreak
  split
  · rename_i h
    constructor
    · exact Or.inr
    · rintro (rfl | hb)
      · exact h
      · exact hb
  · simp [or_comm]

end Machine

end Chip8
