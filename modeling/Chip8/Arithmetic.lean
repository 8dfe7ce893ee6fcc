/-! Byte arithmetic that also gives a flag: a carry, a missing borrow, or the bit shifted out. -/
namespace Chip8

structure Flagged where
  value : UInt8
  flag : Bool
  deriving DecidableEq

namespace Flagged

def flagByte (r : Flagged) : UInt8 := if r.flag then 1 else 0

def add (a b : UInt8) : Flagged := ⟨a + b, decide (256 ≤ a.toNat + b.toNat)⟩

def sub (a b : UInt8) : Flagged := ⟨a - b, decide (b.toNat ≤ a.toNat)⟩

/-- Half, and the lowest bit. -/
def shiftRight (a : UInt8) : Flagged := ⟨a >>> 1, a.toNat.testBit 0⟩

/-- Twice, and the highest bit. -/
def shiftLeft (a : UInt8) : Flagged := ⟨a <<< 1, a.toNat.testBit 7⟩

theorem toNat_flagByte (r : Flagged) : r.flagByte.toNat = r.flag.toNat := by
  unfold flagByte
  cases r.flag <;> rfl

end Flagged

end Chip8
