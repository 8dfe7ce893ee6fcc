import Chip8.Processor.Machine

/-! Words as addresses. Wrapping a word keeps the address it stands for, and sums and differences of
words stand for those of addresses. -/
namespace Chip8

variable (a b : UInt16)

theorem toNat_wrapWord : (wrapWord a).toNat = a.toNat % 4096 := by
  rw [wrapWord, UInt16.toNat_mod]
  rfl

theorem wrapWord_lt : (wrapWord a).toNat < 4096 := by
  rw [toNat_wrapWord]
  exact Nat.mod_lt _ (by decide)

variable {a} in
theorem wrapWord_of_lt (h : a.toNat < 4096) : wrapWord a = a := by
  apply UInt16.toNat_inj.mp
  rw [toNat_wrapWord, Nat.mod_eq_of_lt h]

theorem toNat_addressOf : (addressOf a).toNat = a.toNat % 4096 := BitVec.toNat_ofNat _ _

variable {a} in
theorem toNat_addressOf_of_lt (h : a.toNat < 4096) : (addressOf a).toNat = a.toNat := by
  rw [toNat_addressOf, Nat.mod_eq_of_lt h]

theorem addressWord_addressOf : addressWord (addressOf a) = wrapWord a := by
  apply UInt16.toNat_inj.mp
  rw [toNat_addressWord, toNat_addressOf, toNat_wrapWord]

@[simp] theorem addressOf_addressWord (c : Address) : addressOf (addressWord c) = c := by
  apply BitVec.eq_of_toNat_eq
  rw [toNat_addressOf, toNat_addressWord, Nat.mod_eq_of_lt c.isLt]

@[simp] theorem addressOf_wrapWord : addressOf (wrapWord a) = addressOf a := by
  apply BitVec.eq_of_toNat_eq
  rw [toNat_addressOf, toNat_wrapWord, Nat.mod_mod, toNat_addressOf]

@[simp] theorem addressOf_add : addressOf (a + b) = addressOf a + addressOf b := by
  apply BitVec.eq_of_toNat_eq
  rw [BitVec.toNat_add]
  simp only [toNat_addressOf, UInt16.toNat_add]
  omega

@[simp] theorem addressOf_sub : addressOf (a - b) = addressOf a - addressOf b := by
  apply BitVec.eq_of_toNat_eq
  have hb := b.toNat_lt
  rw [BitVec.toNat_sub]
  simp only [toNat_addressOf, UInt16.toNat_sub]
  omega

@[simp] theorem addressOf_toUInt16 (c : UInt8) : addressOf c.toUInt16 = BitVec.ofNat 12 c.toNat := by
  rw [addressOf, UInt8.toNat_toUInt16]

/-- Going behind an instruction and back leads to where it stands, also at the end of memory. -/
theorem wrapWord_add_sub : wrapWord (wrapWord (a + 2) - 2) = wrapWord a := by
  calc
    wrapWord (wrapWord (a + 2) - 2)
    _ = addressWord (addressOf (wrapWord (a + 2) - 2)) := (addressWord_addressOf _).symm
    _ = addressWord (addressOf a) := by
      rw [addressOf_sub, addressOf_wrapWord, addressOf_add, BitVec.add_sub_cancel]
    _ = wrapWord a := addressWord_addressOf a

namespace Processor

theorem toNat_glyph (b : UInt8) : (glyph b).toNat = Font.start + Font.height * (b.toNat % 16) := by
  have hstart : (UInt16.ofNat Font.start).toNat = Font.start := by decide
  have hheight : (UInt16.ofNat Font.height).toNat = Font.height := by decide
  have hdigit : (b.toUInt16 % 0x10).toNat = b.toNat % 16 := by
    rw [UInt16.toNat_mod, UInt8.toNat_toUInt16]
    rfl
  have hlt : Font.start + Font.height * (b.toNat % 16) < 2 ^ 16 := by
    unfold Font.start Font.height
    omega
  rw [glyph, UInt16.toNat_add, UInt16.toNat_mul, hstart, hheight, hdigit, Nat.add_mod_mod,
    Nat.mod_eq_of_lt hlt]

theorem toNat_glyph_lt (b : UInt8) : (glyph b).toNat < 4096 := by
  rw [toNat_glyph, Font.start, Font.height]
  omega

end Processor

end Chip8
