import Chip8.Fault

/-! The sixteen keys, and a latch that remembers the first key to go down. -/
namespace Chip8
open Chip8.Text

structure Keypad where
  held : Vector Bool 16
  latch : Option Key
  deriving DecidableEq

namespace Keypad

def released : Keypad := ⟨Vector.replicate 16 false, none⟩

def isHeld (k : Keypad) (key : Key) : Bool := k.held.get key

/-- Keys that do not exist are never held. -/
def isPressed (k : Keypad) (n : Nat) : Bool :=
  if h : n < 16 then k.isHeld ⟨n, h⟩ else false

/-- Moves a key, and tells whether that changed anything. A key that goes down is remembered
unless another one already is. -/
def set (k : Keypad) (key : Key) (down : Bool) : Bool × Keypad :=
  if k.isHeld key = down then (false, k)
  else (true,
    { held := k.held.set key.val down (digit_lt key)
      latch := if down then k.latch.or (some key) else k.latch })

def setKey (k : Keypad) (n : Nat) (down : Bool) : Except Fault (Bool × Keypad) :=
  if h : n < 16 then .ok (k.set ⟨n, h⟩ down) else .error (.noSuchKey n)

/-- Forgets the remembered key, so that only keys that go down from now on count. -/
def arm (k : Keypad) : Keypad := { k with latch := none }

/-- The first key that went down since the latch was last empty. -/
def takePress (k : Keypad) : Option Key × Keypad := (k.latch, k.arm)

def inspect (k : Keypad) : String :=
  record "Keypad" [
    ("keys", list (k.held.toList.map bool)),
    ("latch", option (k.latch.map fun key => key.val.repr))]

theorem set_fst (k : Keypad) (key : Key) (down : Bool) :
    (k.set key down).1 = (k.isHeld key != down) := by
  unfold set
  split
  · rename_i h
    simp [h]
  · rename_i h
    simp [h]

theorem isHeld_set (k : Keypad) (key other : Key) (down : Bool) :
    (k.set key down).2.isHeld other = if key = other then down else k.isHeld other := by
  unfold set
  split
  · rename_i h
    by_cases he : key = other
    · subst he
      simp [h]
    · simp [he]
  · simp only [isHeld, get_eq_getElem]
    rw [Vector.getElem_set]
    simp only [Fin.ext_iff]

/-- Only a key that really goes down is remembered, and only by an empty latch. -/
theorem latch_set (k : Keypad) (key : Key) (down : Bool) :
    (k.set key down).2.latch =
      if k.isHeld key = false ∧ down = true then k.latch.or (some key) else k.latch := by
  unfold set
  cases hk : k.isHeld key <;> cases down <;> simp

end Keypad

end Chip8
