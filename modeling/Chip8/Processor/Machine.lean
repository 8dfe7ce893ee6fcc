import Chip8.Processor.Operation

/-! A processor seen as a machine: words become addresses, and numbers become keys and registers. -/
namespace Chip8

/-- The address that a word stands for. -/
def addressOf (a : UInt16) : Address := BitVec.ofNat 12 a.toNat

def KeyRow.toKeypad (k : KeyRow) : Keypad := ⟨k.held, k.latch.map lastDigit⟩

namespace Processor

def State.toActivity : State → Activity
  | .running => .running
  | .blockedOnKey x => .awaitingKey (lastDigit x)

def toMachine (p : Processor) : Machine where
  flags := p.flags
  memory := p.memory
  screen := p.screen
  keypad := p.keys.toKeypad
  timers := p.timers
  stack := p.stack.toList.reverse.map addressOf
  pc := addressOf p.pc
  i := addressOf p.i
  v := p.v
  activity := p.state.toActivity
  cycle := p.cycle
  breakpoints := p.breakpoints
  program := p.program
  random := p.random

def Effect.toStep {α : Type} (e : Effect α) : Step α := ⟨e.processor.toMachine, e.result, e.notices⟩

end Processor

end Chip8
