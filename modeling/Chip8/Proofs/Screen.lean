import Chip8.Screen.Basic
import Mathlib.Data.Nat.Bitwise

/-! Pixels as bits: each pixel has a bit of its own, so flipping one leaves all others. -/
namespace Chip8

theorem toNat_bitMask {k : Nat} (h : k < 8) : (bitMask k).toNat = 2 ^ (7 - k) := by
  have hall : ∀ k < 8, (bitMask k).toNat = 2 ^ (7 - k) := by decide
  exact hall k h

/-- A mask picks the bit it is named for. -/
theorem and_bitMask_bne_zero (b : UInt8) {k : Nat} (h : k < 8) :
    (b &&& bitMask k != 0) = b.toNat.testBit (7 - k) := by
  have hand : (b &&& bitMask k).toNat = (b.toNat.testBit (7 - k)).toNat * 2 ^ (7 - k) := by
    rw [UInt8.toNat_and, toNat_bitMask h, Nat.and_two_pow]
  have hpos : 2 ^ (7 - k) ≠ 0 := (Nat.two_pow_pos (7 - k)).ne'
  rw [Bool.eq_iff_iff, bne_iff_ne, ne_eq, ← UInt8.toNat_inj, hand, UInt8.toNat_zero,
    Nat.mul_eq_zero]
  cases b.toNat.testBit (7 - k) <;> simp

theorem Pixel.eq_iff {p q : Pixel} :
    p = q ↔ p.cell = q.cell ∧ p.column.val % 8 = q.column.val % 8 := by
  constructor
  · intro h
    rw [h]
    exact ⟨rfl, rfl⟩
  · intro h
    obtain ⟨⟨px, hpx⟩, ⟨py, hpy⟩⟩ := p
    obtain ⟨⟨qx, hqx⟩, ⟨qy, hqy⟩⟩ := q
    simp only [cell, mk.injEq, Fin.mk.injEq] at h ⊢
    omega

namespace Screen

variable (s : Screen)

theorem get_eq_lit {px py : Nat} (hx : px < 64) (hy : py < 32) :
    s.get px py = s.lit ⟨⟨px, hx⟩, ⟨py, hy⟩⟩ :=
  dif_pos ⟨hx, hy⟩

theorem lit_eq_testBit (p : Pixel) :
    s.lit p = (s.cells.get ⟨p.cell, p.cell_lt⟩).toNat.testBit (7 - p.column.val % 8) :=
  and_bitMask_bne_zero _ (Nat.mod_lt _ (by decide))

/-- A screen is determined by its pixels. -/
theorem ext_lit {s t : Screen} (h : ∀ p, s.lit p = t.lit p) : s = t := by
  obtain ⟨cells⟩ := s
  obtain ⟨cells'⟩ := t
  refine congrArg Screen.mk (Vector.ext fun k hk => ?_)
  apply UInt8.toNat_inj.mp
  apply Nat.eq_of_testBit_eq
  intro j
  by_cases hj : j < 8
  · have hp := h ⟨⟨8 * (k % 8) + (7 - j), by omega⟩, ⟨k / 8, by omega⟩⟩
    have hcell : 8 * (k / 8) + (8 * (k % 8) + (7 - j)) / 8 = k := by omega
    have hbit : 7 - (8 * (k % 8) + (7 - j)) % 8 = j := by omega
    simpa only [lit_eq_testBit, get_eq_getElem, Pixel.cell, hcell, hbit] using hp
  · have hout : ∀ b : UInt8, b.toNat.testBit j = false := by
      intro b
      have hpow : 2 ^ 8 ≤ 2 ^ j := Nat.pow_le_pow_right (by decide) (Nat.le_of_not_lt hj)
      exact Nat.testBit_lt_two_pow (Nat.lt_of_lt_of_le b.toNat_lt hpow)
    rw [hout, hout]

theorem lit_toggle (p q : Pixel) :
    (s.toggle p).2.lit q = if p = q then !s.lit q else s.lit q := by
  have hmask : p.mask.toNat = 2 ^ (7 - p.column.val % 8) := toNat_bitMask (Nat.mod_lt _ (by decide))
  rw [lit_eq_testBit, lit_eq_testBit]
  simp only [toggle, get_eq_getElem, Vector.getElem_set]
  by_cases hc : p.cell = q.cell
  · simp only [hc, if_true]
    rw [UInt8.toNat_xor, Nat.testBit_xor, hmask, Nat.testBit_two_pow]
    by_cases hb : p.column.val % 8 = q.column.val % 8
    · rw [if_pos (Pixel.eq_iff.mpr ⟨hc, hb⟩), hb]
      simp
    · have hne : 7 - p.column.val % 8 ≠ 7 - q.column.val % 8 := by omega
      rw [if_neg fun h => hb (Pixel.eq_iff.mp h).2, decide_eq_false hne, Bool.xor_false]
  · rw [if_neg hc, if_neg fun h => hc (Pixel.eq_iff.mp h).1]

end Screen

end Chip8
