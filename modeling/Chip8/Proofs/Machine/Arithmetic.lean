import Chip8.Machine.Execute
import Chip8.Proofs.Codec

/-! What arithmetic instructions leave in the registers, as equations between numbers. The operands
are the values before the instruction, whichever of `vX`, `vY` and `vF` are one register. -/
namespace Chip8

namespace Flagged

theorem toNat_add (a b : UInt8) :
    (add a b).value.toNat + 256 * (add a b).flag.toNat = a.toNat + b.toNat := by
  have ha := a.toNat_lt
  have hb := b.toNat_lt
  simp only [add, UInt8.toNat_add]
  by_cases h : 256 ≤ a.toNat + b.toNat
  · simp only [h, decide_true, Bool.toNat_true]
    omega
  · simp only [h, decide_false, Bool.toNat_false]
    omega

theorem toNat_sub (a b : UInt8) :
    (sub a b).value.toNat + b.toNat = a.toNat + 256 * (1 - (sub a b).flag.toNat) := by
  have ha := a.toNat_lt
  have hb := b.toNat_lt
  simp only [sub, UInt8.toNat_sub]
  by_cases h : b.toNat ≤ a.toNat
  · simp only [h, decide_true, Bool.toNat_true]
    omega
  · simp only [h, decide_false, Bool.toNat_false]
    omega

theorem toNat_shiftRight (a : UInt8) :
    2 * (shiftRight a).value.toNat + (shiftRight a).flag.toNat = a.toNat := by
  have hv : (shiftRight a).value.toNat = a.toNat / 2 := by
    simp [shiftRight, Nat.shiftRight_eq_div_pow]
  have hf : (shiftRight a).flag.toNat = a.toNat / 2 ^ 0 % 2 := Nat.toNat_testBit a.toNat 0
  omega

theorem toNat_shiftLeft (a : UInt8) :
    (shiftLeft a).value.toNat + 256 * (shiftLeft a).flag.toNat = 2 * a.toNat := by
  have ha := a.toNat_lt
  have hv : (shiftLeft a).value.toNat = 2 * a.toNat % 256 := by
    simp [shiftLeft, Nat.shiftLeft_eq, Nat.mul_comm]
  have hf : (shiftLeft a).flag.toNat = a.toNat / 2 ^ 7 % 2 := Nat.toNat_testBit a.toNat 7
  omega

end Flagged

namespace Machine

/-- What becomes of a machine that executes a word, if the word is an instruction. -/
def obey? (m : Machine) (word : Nat) : Option (Except Fault Machine) :=
  (Instruction.decode (UInt16.ofNat word)).map m.execute

theorem obey?_code (m : Machine) (i : Instruction) : m.obey? i.code = some (m.execute i) := by
  have hi : Instruction.decode (UInt16.ofNat i.code) = some i := Instruction.decode_encode i
  rw [obey?, hi, Option.map_some]

/-- The registers of `n` are those of `m`, but for the result `r` in `vX` and the flag `f` in `vF`.
Where these are one register, the flag is in it. -/
structure Flagging (m : Machine) (x : Register) (r f : Nat) (n : Machine) : Prop where
  value_lt : r < 256
  flag_le : f ≤ 1
  flag : (n.v.get vF).toNat = f
  value : x ≠ vF → (n.v.get x).toNat = r
  others : ∀ z, z ≠ x → z ≠ vF → n.v.get z = m.v.get z

theorem get_setFlagged (m : Machine) (x z : Register) (r : Flagged) :
    (m.advance.setFlagged x r).v.get z =
      if vF = z then r.flagByte else if x = z then r.value else m.v.get z := by
  dsimp only [setFlagged]
  rw [Registers.get_set, Registers.get_set]
  rfl

theorem flagging_setFlagged (m : Machine) (x : Register) (r : Flagged) :
    Flagging m x r.value.toNat r.flag.toNat (m.advance.setFlagged x r) where
  value_lt := r.value.toNat_lt
  flag_le := Bool.toNat_le r.flag
  flag := by
    rw [get_setFlagged, if_pos rfl, Flagged.toNat_flagByte]
  value := by
    intro hx
    rw [get_setFlagged, if_neg (Ne.symm hx), if_pos rfl]
  others := by
    intro z hx hF
    rw [get_setFlagged, if_neg (Ne.symm hF), if_neg (Ne.symm hx)]

/-- The registers of `n` are those of `m`, but for the result `r` in `vX` and for `vF`, which some
dialects clear afterwards. -/
structure Overwriting (m : Machine) (x : Register) (r : Nat) (n : Machine) : Prop where
  value : x ≠ vF ∨ m.flags.dialect.vfReset = false → (n.v.get x).toNat = r
  cleared : m.flags.dialect.vfReset = true → n.v.get vF = 0
  kept : m.flags.dialect.vfReset = false → x ≠ vF → n.v.get vF = m.v.get vF
  others : ∀ z, z ≠ x → z ≠ vF → n.v.get z = m.v.get z

theorem get_setBitwise (m : Machine) (x z : Register) (b : UInt8) :
    (m.advance.setBitwise x b).v.get z =
      if m.flags.dialect.vfReset = true ∧ vF = z then 0
      else if x = z then b else m.v.get z := by
  dsimp only [setBitwise, advance]
  cases m.flags.dialect.vfReset with
  | true => simp [Registers.get_set]
  | false => simp [Registers.get_set]

theorem overwriting_setBitwise (m : Machine) (x : Register) (b : UInt8) :
    Overwriting m x b.toNat (m.advance.setBitwise x b) where
  value := by
    intro hx
    have hkept : ¬ (m.flags.dialect.vfReset = true ∧ vF = x) := by
      rintro ⟨hd, rfl⟩
      simp [hd] at hx
    rw [get_setBitwise, if_neg hkept, if_pos rfl]
  cleared := by
    intro hd
    rw [get_setBitwise, if_pos ⟨hd, rfl⟩]
  kept := by
    intro hd hx
    rw [get_setBitwise, if_neg (by simp [hd]), if_neg hx]
  others := by
    intro z hx hF
    rw [get_setBitwise, if_neg fun h => hF h.2.symm, if_neg (Ne.symm hx)]

theorem toNat_shiftSource (m : Machine) (x y : Register) :
    (m.shiftSource x y).toNat =
      if m.flags.dialect.shift then (m.v.get y).toNat else (m.v.get x).toNat := by
  unfold shiftSource
  split <;> rfl

open Instruction in
/-- Results and flags together make up the exact sums, differences, halves and doubles, also where
`vX`, `vY` and `vF` are not three registers. -/
theorem arithmetic_exact (m : Machine) (x y : Register) (k : UInt8) :
    let a := (m.v.get x).toNat
    let b := (m.v.get y).toNat
    let s := if m.flags.dialect.shift then b else a
    (∃ n r f, m.obey? (withPair 0x8 x y 0x4) = some (.ok n) ∧ Flagging m x r f n ∧
      r + 256 * f = a + b) ∧
    (∃ n r f, m.obey? (withPair 0x8 x y 0x5) = some (.ok n) ∧ Flagging m x r f n ∧
      r + b = a + 256 * (1 - f)) ∧
    (∃ n r f, m.obey? (withPair 0x8 x y 0x7) = some (.ok n) ∧ Flagging m x r f n ∧
      r + a = b + 256 * (1 - f)) ∧
    (∃ n r f, m.obey? (withPair 0x8 x y 0x6) = some (.ok n) ∧ Flagging m x r f n ∧
      2 * r + f = s) ∧
    (∃ n r f, m.obey? (withPair 0x8 x y 0xe) = some (.ok n) ∧ Flagging m x r f n ∧
      r + 256 * f = 2 * s) ∧
    (∃ n, m.obey? (withPair 0x8 x y 0x1) = some (.ok n) ∧ Overwriting m x (a ||| b) n) ∧
    (∃ n, m.obey? (withPair 0x8 x y 0x2) = some (.ok n) ∧ Overwriting m x (a &&& b) n) ∧
    (∃ n, m.obey? (withPair 0x8 x y 0x3) = some (.ok n) ∧ Overwriting m x (a ^^^ b) n) ∧
    ∃ n, m.obey? (withByte 0x7 x k.toNat) = some (.ok n) ∧
      (n.v.get x).toNat = (a + k.toNat) % 256 ∧ ∀ z, z ≠ x → n.v.get z = m.v.get z := by
  intro a b s
  have hs : s = (m.shiftSource x y).toNat := (toNat_shiftSource m x y).symm
  refine ⟨⟨_, _, _, obey?_code m (.add x y), flagging_setFlagged m x _, Flagged.toNat_add _ _⟩,
    ⟨_, _, _, obey?_code m (.sub x y), flagging_setFlagged m x _, Flagged.toNat_sub _ _⟩,
    ⟨_, _, _, obey?_code m (.subFrom x y), flagging_setFlagged m x _, Flagged.toNat_sub _ _⟩,
    ⟨_, _, _, obey?_code m (.shiftRight x y), flagging_setFlagged m x _, ?_⟩,
    ⟨_, _, _, obey?_code m (.shiftLeft x y), flagging_setFlagged m x _, ?_⟩,
    ⟨_, obey?_code m (.or x y), ?_⟩, ⟨_, obey?_code m (.and x y), ?_⟩,
    ⟨_, obey?_code m (.xor x y), ?_⟩, ⟨_, obey?_code m (.addByte x k), ?_, ?_⟩⟩
  · rw [hs]
    exact Flagged.toNat_shiftRight _
  · rw [hs]
    exact Flagged.toNat_shiftLeft _
  · have hor := overwriting_setBitwise m x (m.v.get x ||| m.v.get y)
    rwa [UInt8.toNat_or] at hor
  · have hand := overwriting_setBitwise m x (m.v.get x &&& m.v.get y)
    rwa [UInt8.toNat_and] at hand
  · have hxor := overwriting_setBitwise m x (m.v.get x ^^^ m.v.get y)
    rwa [UInt8.toNat_xor] at hxor
  · dsimp only [setRegister]
    rw [Registers.get_set, if_pos rfl, UInt8.toNat_add]
  · intro z hz
    dsimp only [setRegister]
    rw [Registers.get_set, if_neg (Ne.symm hz)]
    rfl

end Machine

end Chip8
