import Chip8.Text.Record

/-! The delay timer and the sound timer. Both count down to zero. -/
namespace Chip8

structure Timers where
  delay : UInt8 := 0
  sound : UInt8 := 0
  deriving DecidableEq

namespace Timers

/-- One less, but never below zero. -/
def countDown (n : UInt8) : UInt8 := if n = 0 then 0 else n - 1

def tick (t : Timers) : Timers := ⟨countDown t.delay, countDown t.sound⟩

def isBeeping (t : Timers) : Bool := t.sound != 0

def inspect (t : Timers) : String :=
  Text.record "Timers" [("delay", t.delay.toNat.repr), ("sound", t.sound.toNat.repr)]

theorem toNat_countDown (n : UInt8) : (countDown n).toNat = n.toNat - 1 := by
  unfold countDown
  split
  · rename_i h
    simp [h]
  · rename_i h
    have hn : n.toNat ≠ 0 := fun h0 => h (UInt8.toNat_inj.mp h0)
    rw [UInt8.toNat_sub_of_le _ _ (UInt8.le_iff_toNat_le.mpr (by simp; omega))]
    simp

end Timers

end Chip8
