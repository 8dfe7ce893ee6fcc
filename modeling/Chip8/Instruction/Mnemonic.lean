import Chip8.Instruction.Basic
import Chip8.Text.Digits
import Chip8.Text.Record

/-! Instructions as text: the line of an assembler, and the record of their parts. -/
namespace Chip8.Instruction
open Chip8.Text

def registerText (x : Register) : String := "v" ++ hexUpper x.val

def byteText (b : UInt8) : String := "#" ++ hex 2 b.toNat

def addressText (a : Address) : String := hex 3 a.toNat

def dollarText (a : Address) : String := "$" ++ hex 3 a.toNat

/-- The operation, filled up to seven characters, and its operands. -/
def mnemonic : Instruction → String
  | .clear => "cls    "
  | .ret => "ret    "
  | .jump a => "jp     " ++ addressText a
  | .call a => "call   " ++ addressText a
  | .skipIfByte x b => "se     " ++ registerText x ++ ", " ++ byteText b
  | .skipUnlessByte x b => "sne    " ++ registerText x ++ ", " ++ byteText b
  | .skipIfEqual x y => "se     " ++ registerText x ++ ", " ++ registerText y
  | .setByte x b => "ld     " ++ registerText x ++ ", " ++ byteText b
  | .addByte x b => "add    " ++ registerText x ++ ", " ++ byteText b
  | .copy x y => "ld     " ++ registerText x ++ ", " ++ registerText y
  | .or x y => "or     " ++ registerText x ++ ", " ++ registerText y
  | .and x y => "and    " ++ registerText x ++ ", " ++ registerText y
  | .xor x y => "xor    " ++ registerText x ++ ", " ++ registerText y
  | .add x y => "add    " ++ registerText x ++ ", " ++ registerText y
  | .sub x y => "sub    " ++ registerText x ++ ", " ++ registerText y
  | .shiftRight x y => "shr    " ++ registerText x ++ ", " ++ registerText y
  | .subFrom x y => "subn   " ++ registerText x ++ ", " ++ registerText y
  | .shiftLeft x y => "shl    " ++ registerText x ++ ", " ++ registerText y
  | .skipUnlessEqual x y => "sne    " ++ registerText x ++ ", " ++ registerText y
  | .setIndex a => "ld     I, " ++ dollarText a
  | .jumpFrom a => "jp     v0, " ++ dollarText a
  | .random x b => "rnd    " ++ registerText x ++ ", " ++ byteText b
  | .draw x y n => "drw    " ++ registerText x ++ ", " ++ registerText y ++ ", #" ++ hex 1 n.val
  | .skipIfKey x => "skp    " ++ registerText x
  | .skipUnlessKey x => "sknp   " ++ registerText x
  | .getDelay x => "ld     " ++ registerText x ++ ", DT"
  | .awaitKey x => "ld     " ++ registerText x ++ ", K"
  | .setDelay x => "ld     DT, " ++ registerText x
  | .setSound x => "ld     ST, " ++ registerText x
  | .addIndex x => "add    I, " ++ registerText x
  | .pointAtGlyph x => "ld     F, " ++ registerText x
  | .decimalDigits x => "ld     B, " ++ registerText x
  | .store x => "ld     [I], " ++ registerText x
  | .fetch x => "ld     " ++ registerText x ++ ", [I]"

def inspectAddress (name : String) (a : Address) : String :=
  record name [("A", a.toNat.repr)]

def inspectByte (name : String) (x : Register) (b : UInt8) : String :=
  record name [("B", b.toNat.repr), ("x", x.val.repr)]

def inspectPair (name : String) (x y : Register) : String :=
  record name [("y", y.val.repr), ("x", x.val.repr)]

def inspectRegister (name : String) (x : Register) : String :=
  record name [("x", x.val.repr)]

/-- The name of the form and its operands, in decimal. -/
def inspect : Instruction → String
  | .clear => record "cls" []
  | .ret => record "ret" []
  | .jump a => inspectAddress "jp" a
  | .call a => inspectAddress "call" a
  | .skipIfByte x b => inspectByte "seb" x b
  | .skipUnlessByte x b => inspectByte "sneb" x b
  | .skipIfEqual x y => inspectPair "se" x y
  | .setByte x b => inspectByte "ldb" x b
  | .addByte x b => inspectByte "addb" x b
  | .copy x y => inspectPair "ld" x y
  | .or x y => inspectPair "or" x y
  | .and x y => inspectPair "and" x y
  | .xor x y => inspectPair "xor" x y
  | .add x y => inspectPair "add" x y
  | .sub x y => inspectPair "sub" x y
  | .shiftRight x y => inspectPair "shr" x y
  | .subFrom x y => inspectPair "subn" x y
  | .shiftLeft x y => inspectPair "shl" x y
  | .skipUnlessEqual x y => inspectPair "sne" x y
  | .setIndex a => inspectAddress "ldi" a
  | .jumpFrom a => inspectAddress "jpr" a
  | .random x b => inspectByte "rnd" x b
  | .draw x y n => record "drw" [("y", y.val.repr), ("x", x.val.repr), ("n", n.val.repr)]
  | .skipIfKey x => inspectRegister "skp" x
  | .skipUnlessKey x => inspectRegister "sknp" x
  | .getDelay x => inspectRegister "lddt" x
  | .awaitKey x => inspectRegister "ldk" x
  | .setDelay x => inspectRegister "stdt" x
  | .setSound x => inspectRegister "stst" x
  | .addIndex x => inspectRegister "addi" x
  | .pointAtGlyph x => inspectRegister "font" x
  | .decimalDigits x => inspectRegister "bcd" x
  | .store x => inspectRegister "stor" x
  | .fetch x => inspectRegister "load" x

end Chip8.Instruction
