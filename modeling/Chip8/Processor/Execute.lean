import Chip8.Machine.Execute
import Chip8.Processor.Basic

/-! What each instruction does to a processor whose `pc` already stands behind it. -/
namespace Chip8.Processor

variable (p : Processor)

def skip : Processor := { p with pc := wrapWord (p.pc + 2) }

def skipIf (condition : Bool) : Processor := if condition then p.skip else p

def setRegister (x : Register) (b : UInt8) : Processor := { p with v := p.v.set x b }

def setFlagged (x : Register) (r : Flagged) : Processor :=
  (p.setRegister x r.value).setRegister vF r.flagByte

def setBitwise (x : Register) (b : UInt8) : Processor :=
  let p := p.setRegister x b
  if p.flags.dialect.vfReset then p.setRegister vF 0 else p

def shiftSource (x y : Register) : UInt8 := p.v.get (if p.flags.dialect.shift then y else x)

def passIndex (x : Register) : Processor :=
  if p.flags.dialect.dmaInc then { p with i := wrapWord (p.i + (UInt16.ofNat x.val + 1)) } else p

def ret : Except Fault Unit × Processor :=
  let newest := p.stack.back?
  let p := { p with stack := p.stack.pop }
  match newest with
  | none => (.error (.stackUnderflow (wrapWord (p.pc - 2))), p)
  | some a => (.ok (), { p with pc := a })

def jump (a : UInt16) : Processor := { p with pc := wrapWord a }

def call (a : UInt16) : Except Fault Unit × Processor :=
  if Machine.stackDepth ≤ p.stack.size then
    (.error (.stackOverflow (wrapWord (p.pc - 2)) Machine.stackDepth), p)
  else (.ok (), { p with stack := p.stack.push p.pc }.jump a)

def drawSprite (x y : Register) (n : Fin 16) : Processor :=
  let sprite := p.memory.readBytes p.i.toNat n.val
  let drawn := p.screen.draw (p.v.get x).toNat (p.v.get y).toNat sprite p.flags.dialect.screenWrap
  { p with screen := drawn.2 }.setRegister vF (if drawn.1 then 1 else 0)

def takeRandom (x : Register) (b : UInt8) : Processor :=
  { p with random := p.random.advance }.setRegister x (p.random.peek &&& b)

def isNamedKeyHeld (x : Register) : Bool := p.keys.isPressed ((p.v.get x).toNat &&& 0xf)

/-- Goes back onto the instruction, and waits there for a key to go down. -/
def awaitKey (x : Register) : Processor :=
  { p with pc := wrapWord (p.pc - 2), keys := p.keys.arm, state := .blockedOnKey x.val }

/-- The wait is over, and the processor goes on behind the instruction it waited on. -/
def finishWait (x key : Nat) : Processor :=
  { { p with v := p.v.setAt x (UInt8.ofNat key) }.skip with state := .running }

def glyph (b : UInt8) : UInt16 :=
  UInt16.ofNat Font.start + UInt16.ofNat Font.height * (b.toUInt16 % 0x10)

/-- Executes one instruction. What is told of it comes with the processor it leaves. -/
def execute : Instruction → Except Fault Unit × Processor
  | .clear => (.ok (), { p with screen := .blank })
  | .ret => p.ret
  | .jump a => (.ok (), p.jump (addressWord a))
  | .call a => p.call (addressWord a)
  | .skipIfByte x b => (.ok (), p.skipIf (p.v.get x == b))
  | .skipUnlessByte x b => (.ok (), p.skipIf (p.v.get x != b))
  | .skipIfEqual x y => (.ok (), p.skipIf (p.v.get x == p.v.get y))
  | .setByte x b => (.ok (), p.setRegister x b)
  | .addByte x b => (.ok (), p.setRegister x (p.v.get x + b))
  | .copy x y => (.ok (), p.setRegister x (p.v.get y))
  | .or x y => (.ok (), p.setBitwise x (p.v.get x ||| p.v.get y))
  | .and x y => (.ok (), p.setBitwise x (p.v.get x &&& p.v.get y))
  | .xor x y => (.ok (), p.setBitwise x (p.v.get x ^^^ p.v.get y))
  | .add x y => (.ok (), p.setFlagged x (.add (p.v.get x) (p.v.get y)))
  | .sub x y => (.ok (), p.setFlagged x (.sub (p.v.get x) (p.v.get y)))
  | .shiftRight x y => (.ok (), p.setFlagged x (.shiftRight (p.shiftSource x y)))
  | .subFrom x y => (.ok (), p.setFlagged x (.sub (p.v.get y) (p.v.get x)))
  | .shiftLeft x y => (.ok (), p.setFlagged x (.shiftLeft (p.shiftSource x y)))
  | .skipUnlessEqual x y => (.ok (), p.skipIf (p.v.get x != p.v.get y))
  | .setIndex a => (.ok (), { p with i := wrapWord (addressWord a) })
  | .jumpFrom a => (.ok (), p.jump (addressWord a + (p.v.get v0).toUInt16))
  | .random x b => (.ok (), p.takeRandom x b)
  | .draw x y n => (.ok (), p.drawSprite x y n)
  | .skipIfKey x => (.ok (), p.skipIf (p.isNamedKeyHeld x))
  | .skipUnlessKey x => (.ok (), p.skipIf (!p.isNamedKeyHeld x))
  | .getDelay x => (.ok (), p.setRegister x p.timers.delay)
  | .awaitKey x => (.ok (), p.awaitKey x)
  | .setDelay x => (.ok (), { p with timers.delay := p.v.get x })
  | .setSound x => (.ok (), { p with timers.sound := p.v.get x })
  | .addIndex x => (.ok (), { p with i := wrapWord (p.i + (p.v.get x).toUInt16) })
  | .pointAtGlyph x => (.ok (), { p with i := glyph (p.v.get x) })
  | .decimalDigits x =>
    (.ok (), { p with memory := p.memory.writeBytes p.i.toNat (Machine.digits (p.v.get x)) })
  | .store x =>
    (.ok (), { p with memory := p.memory.writeBytes p.i.toNat (p.v.upTo x) }.passIndex x)
  | .fetch x =>
    (.ok (), { p with v := p.v.load (p.memory.readBytes p.i.toNat (x.val + 1)) }.passIndex x)

end Chip8.Processor
