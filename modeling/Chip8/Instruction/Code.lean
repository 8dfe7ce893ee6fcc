import Chip8.Instruction.Basic

/-! Instructions as 16-bit words and as pairs of bytes. -/
namespace Chip8.Instruction

def ofArithmetic? (x y : Register) : Nat → Option Instruction
  | 0x0 => some (.copy x y)
  | 0x1 => some (.or x y)
  | 0x2 => some (.and x y)
  | 0x3 => some (.xor x y)
  | 0x4 => some (.add x y)
  | 0x5 => some (.sub x y)
  | 0x6 => some (.shiftRight x y)
  | 0x7 => some (.subFrom x y)
  | 0xe => some (.shiftLeft x y)
  | _ => none

def ofDevice? (x : Register) : Nat → Option Instruction
  | 0x07 => some (.getDelay x)
  | 0x0a => some (.awaitKey x)
  | 0x15 => some (.setDelay x)
  | 0x18 => some (.setSound x)
  | 0x1e => some (.addIndex x)
  | 0x29 => some (.pointAtGlyph x)
  | 0x33 => some (.decimalDigits x)
  | 0x55 => some (.store x)
  | 0x65 => some (.fetch x)
  | _ => none

/-- The instruction that a word stands for, if it stands for one. -/
def decode (w : UInt16) : Option Instruction :=
  let code := w.toNat
  let x := lastDigit (code / 256)
  let y := lastDigit (code / 16)
  let n := lastDigit code
  let b := UInt8.ofNat code
  let a : Address := BitVec.ofNat 12 code
  match code / 4096 with
  | 0x0 => if code = 0x00e0 then some .clear else if code = 0x00ee then some .ret else none
  | 0x1 => some (.jump a)
  | 0x2 => some (.call a)
  | 0x3 => some (.skipIfByte x b)
  | 0x4 => some (.skipUnlessByte x b)
  | 0x5 => if code % 16 = 0 then some (.skipIfEqual x y) else none
  | 0x6 => some (.setByte x b)
  | 0x7 => some (.addByte x b)
  | 0x8 => ofArithmetic? x y (code % 16)
  | 0x9 => if code % 16 = 0 then some (.skipUnlessEqual x y) else none
  | 0xa => some (.setIndex a)
  | 0xb => some (.jumpFrom a)
  | 0xc => some (.random x b)
  | 0xd => some (.draw x y n)
  | 0xe =>
    if code % 256 = 0x9e then some (.skipIfKey x)
    else if code % 256 = 0xa1 then some (.skipUnlessKey x)
    else none
  | 0xf => ofDevice? x (code % 256)
  | _ => none

def withAddress (head : Nat) (a : Address) : Nat := 4096 * head + a.toNat

/-- The digit `head`, a register, and a byte. -/
def withByte (head : Nat) (x : Register) (b : Nat) : Nat := 4096 * head + 256 * x.val + b

def withPair (head : Nat) (x y : Register) (last : Nat) : Nat :=
  4096 * head + 256 * x.val + 16 * y.val + last

def code : Instruction → Nat
  | .clear => 0x00e0
  | .ret => 0x00ee
  | .jump a => withAddress 0x1 a
  | .call a => withAddress 0x2 a
  | .skipIfByte x b => withByte 0x3 x b.toNat
  | .skipUnlessByte x b => withByte 0x4 x b.toNat
  | .skipIfEqual x y => withPair 0x5 x y 0x0
  | .setByte x b => withByte 0x6 x b.toNat
  | .addByte x b => withByte 0x7 x b.toNat
  | .copy x y => withPair 0x8 x y 0x0
  | .or x y => withPair 0x8 x y 0x1
  | .and x y => withPair 0x8 x y 0x2
  | .xor x y => withPair 0x8 x y 0x3
  | .add x y => withPair 0x8 x y 0x4
  | .sub x y => withPair 0x8 x y 0x5
  | .shiftRight x y => withPair 0x8 x y 0x6
  | .subFrom x y => withPair 0x8 x y 0x7
  | .shiftLeft x y => withPair 0x8 x y 0xe
  | .skipUnlessEqual x y => withPair 0x9 x y 0x0
  | .setIndex a => withAddress 0xa a
  | .jumpFrom a => withAddress 0xb a
  | .random x b => withByte 0xc x b.toNat
  | .draw x y n => withPair 0xd x y n.val
  | .skipIfKey x => withByte 0xe x 0x9e
  | .skipUnlessKey x => withByte 0xe x 0xa1
  | .getDelay x => withByte 0xf x 0x07
  | .awaitKey x => withByte 0xf x 0x0a
  | .setDelay x => withByte 0xf x 0x15
  | .setSound x => withByte 0xf x 0x18
  | .addIndex x => withByte 0xf x 0x1e
  | .pointAtGlyph x => withByte 0xf x 0x29
  | .decimalDigits x => withByte 0xf x 0x33
  | .store x => withByte 0xf x 0x55
  | .fetch x => withByte 0xf x 0x65

def encode (i : Instruction) : UInt16 := UInt16.ofNat i.code

inductive CodecError where
  | unknownOpcode | unexpectedEnd
  deriving DecidableEq

/-- Reads the instruction at the start of some bytes, and tells how many bytes it takes. -/
def readBytes : List UInt8 → Except CodecError (Nat × Instruction)
  | high :: low :: _ =>
    match decode (wordOfBytes high low) with
    | some i => .ok (2, i)
    | none => .error .unknownOpcode
  | _ => .error .unexpectedEnd

/-- Writes an instruction over the start of a buffer, and tells how many bytes that took. -/
def writeBytes (i : Instruction) : List UInt8 → Except CodecError (Nat × List UInt8)
  | _ :: _ :: rest => .ok (2, bigEndianBytes 2 i.code ++ rest)
  | _ => .error .unexpectedEnd

end Chip8.Instruction
