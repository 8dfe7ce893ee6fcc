import Chip8.Word

/-! The sixteen byte registers `v0` to `vF`. -/
namespace Chip8

/-- The register that an indexed jump adds. -/
def v0 : Register := ⟨0, by decide⟩

/-- The register that tells carries, borrows and collisions. -/
def vF : Register := ⟨15, by decide⟩

structure Registers where
  cells : Vector UInt8 16
  deriving DecidableEq

namespace Registers

def zero : Registers := ⟨Vector.replicate 16 0⟩

def get (v : Registers) (x : Register) : UInt8 := v.cells.get x

def set (v : Registers) (x : Register) (b : UInt8) : Registers := ⟨v.cells.set x.val b (digit_lt x)⟩

def toList (v : Registers) : List UInt8 := v.cells.toList

/-- The registers up to and including `vX`. -/
def upTo (v : Registers) (x : Register) : List UInt8 := v.toList.take (x.val + 1)

/-- Puts bytes into the registers from `v0` on. Bytes beyond `vF` are dropped. -/
def load (v : Registers) (bytes : List UInt8) : Registers :=
  ⟨Vector.ofFn fun x : Fin 16 => bytes.getD x.val (v.get x)⟩

theorem get_set (v : Registers) (x y : Register) (b : UInt8) :
    (v.set x b).get y = if x = y then b else v.get y := by
  simp only [get, set, get_eq_getElem]
  rw [Vector.getElem_set]
  simp only [Fin.ext_iff]

theorem get_load (v : Registers) (bytes : List UInt8) (x : Register) :
    (v.load bytes).get x = bytes.getD x.val (v.get x) := by
  simp [get, load, get_eq_getElem]

end Registers

end Chip8
