import Chip8.Arithmetic
import Chip8.Instruction.Basic
import Chip8.Machine.Basic
import Chip8.Screen.Sprite

/-! What each instruction does. An instruction that fails changes nothing. -/
namespace Chip8.Machine

def advance (m : Machine) : Machine := { m with pc := m.pc + 2 }

/-- Goes on to the next instruction, or to the one after it. -/
def skipIf (m : Machine) (condition : Bool) : Machine :=
  { m with pc := if condition then m.pc + 4 else m.pc + 2 }

def setRegister (m : Machine) (x : Register) (b : UInt8) : Machine :=
  { m with v := m.v.set x b }

/-- The value goes to `vX` and then the flag to `vF`, so that the flag wins if both are one. -/
def setFlagged (m : Machine) (x : Register) (r : Flagged) : Machine :=
  { m with v := (m.v.set x r.value).set vF r.flagByte }

/-- The result of a bitwise operation goes to `vX`, and some dialects then clear `vF`. -/
def setBitwise (m : Machine) (x : Register) (b : UInt8) : Machine :=
  let v := m.v.set x b
  { m with v := if m.flags.dialect.vfReset then v.set vF 0 else v }

def shiftSource (m : Machine) (x y : Register) : UInt8 :=
  m.v.get (if m.flags.dialect.shift then y else x)

/-- Some dialects leave `I` behind the registers that were stored or fetched. -/
def passIndex (m : Machine) (x : Register) : Machine :=
  if m.flags.dialect.dmaInc then { m with i := m.i + BitVec.ofNat 12 (x.val + 1) } else m

/-- The key that `vX` names by its low digit. -/
def namedKey (m : Machine) (x : Register) : Key := lastDigit (m.v.get x).toNat

/-- The hundreds, tens and ones of a byte. -/
def digits (b : UInt8) : List UInt8 := [b / 100, b / 10 % 10, b % 10]

def drawSprite (m : Machine) (x y : Register) (n : Fin 16) : Machine :=
  let sprite := m.memory.readBytes m.i.toNat n.val
  let drawn := m.screen.draw (m.v.get x).toNat (m.v.get y).toNat sprite m.flags.dialect.screenWrap
  { m with screen := drawn.2, v := m.v.set vF (if drawn.1 then 1 else 0) }

def execute (m : Machine) : Instruction → Except Fault Machine
  | .clear => .ok { m.advance with screen := .blank }
  | .ret =>
    match m.stack with
    | [] => .error (.stackUnderflow (addressWord m.pc))
    | a :: rest => .ok { m with pc := a, stack := rest }
  | .jump a => .ok { m with pc := a }
  | .call a =>
    if m.stack.length < stackDepth then
      .ok { m with pc := a, stack := (m.pc + 2) :: m.stack }
    else
      .error (.stackOverflow (addressWord m.pc) stackDepth)
  | .skipIfByte x b => .ok (m.skipIf (m.v.get x == b))
  | .skipUnlessByte x b => .ok (m.skipIf (m.v.get x != b))
  | .skipIfEqual x y => .ok (m.skipIf (m.v.get x == m.v.get y))
  | .setByte x b => .ok (m.advance.setRegister x b)
  | .addByte x b => .ok (m.advance.setRegister x (m.v.get x + b))
  | .copy x y => .ok (m.advance.setRegister x (m.v.get y))
  | .or x y => .ok (m.advance.setBitwise x (m.v.get x ||| m.v.get y))
  | .and x y => .ok (m.advance.setBitwise x (m.v.get x &&& m.v.get y))
  | .xor x y => .ok (m.advance.setBitwise x (m.v.get x ^^^ m.v.get y))
  | .add x y => .ok (m.advance.setFlagged x (.add (m.v.get x) (m.v.get y)))
  | .sub x y => .ok (m.advance.setFlagged x (.sub (m.v.get x) (m.v.get y)))
  | .shiftRight x y => .ok (m.advance.setFlagged x (.shiftRight (m.shiftSource x y)))
  | .subFrom x y => .ok (m.advance.setFlagged x (.sub (m.v.get y) (m.v.get x)))
  | .shiftLeft x y => .ok (m.advance.setFlagged x (.shiftLeft (m.shiftSource x y)))
  | .skipUnlessEqual x y => .ok (m.skipIf (m.v.get x != m.v.get y))
  | .setIndex a => .ok { m.advance with i := a }
  | .jumpFrom a => .ok { m with pc := a + BitVec.ofNat 12 (m.v.get v0).toNat }
  | .random x b =>
    .ok { m.advance.setRegister x (m.random.peek &&& b) with random := m.random.advance }
  | .draw x y n => .ok (m.advance.drawSprite x y n)
  | .skipIfKey x => .ok (m.skipIf (m.keypad.isHeld (m.namedKey x)))
  | .skipUnlessKey x => .ok (m.skipIf (!m.keypad.isHeld (m.namedKey x)))
  | .getDelay x => .ok (m.advance.setRegister x m.timers.delay)
  | .awaitKey x => .ok { m with keypad := m.keypad.arm, activity := .awaitingKey x }
  | .setDelay x => .ok { m.advance with timers.delay := m.v.get x }
  | .setSound x => .ok { m.advance with timers.sound := m.v.get x }
  | .addIndex x => .ok { m.advance with i := m.i + BitVec.ofNat 12 (m.v.get x).toNat }
  | .pointAtGlyph x => .ok { m.advance with i := Font.address (m.v.get x) }
  | .decimalDigits x =>
    .ok { m.advance with memory := m.memory.writeBytes m.i.toNat (digits (m.v.get x)) }
  | .store x =>
    .ok ({ m.advance with memory := m.memory.writeBytes m.i.toNat (m.v.upTo x) }.passIndex x)
  | .fetch x =>
    .ok ({ m.advance with v := m.v.load (m.memory.readBytes m.i.toNat (x.val + 1)) }.passIndex x)

end Chip8.Machine
