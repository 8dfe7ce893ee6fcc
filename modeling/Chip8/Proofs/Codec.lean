import Chip8.Instruction.Code
import Mathlib.Tactic.SplitIfs

/-! Words and instructions: a word decodes to an instruction exactly if it is the word of that
instruction. -/
namespace Chip8.Instruction

private theorem head_withAddress {head : Nat} (a : Address) : withAddress head a / 4096 = head := by
  have ha := a.isLt
  unfold withAddress
  omega

private theorem ofNat_withAddress (head : Nat) (a : Address) :
    BitVec.ofNat 12 (withAddress head a) = a := by
  apply BitVec.eq_of_toNat_eq
  have ha := a.isLt
  simp only [BitVec.toNat_ofNat, withAddress]
  omega

private theorem digits_withByte (head : Nat) (x : Register) {b : Nat} (hb : b < 256) :
    withByte head x b / 4096 = head ∧ lastDigit (withByte head x b / 256) = x ∧
      withByte head x b % 256 = b := by
  have hx := x.isLt
  unfold withByte
  refine ⟨by omega, Fin.ext ?_, by omega⟩
  simp only [val_lastDigit]
  omega

private theorem ofNat_withByte (head : Nat) (x : Register) (b : UInt8) :
    UInt8.ofNat (withByte head x b.toNat) = b := by
  have hb := b.toNat_lt
  apply UInt8.toNat_inj.mp
  rw [UInt8.toNat_ofNat']
  exact (digits_withByte head x hb).2.2

private theorem digits_withPair (head : Nat) (x y : Register) {last : Nat} (hl : last < 16) :
    withPair head x y last / 4096 = head ∧ lastDigit (withPair head x y last / 256) = x ∧
      lastDigit (withPair head x y last / 16) = y ∧ withPair head x y last % 16 = last := by
  have hx := x.isLt
  have hy := y.isLt
  unfold withPair
  refine ⟨by omega, Fin.ext ?_, Fin.ext ?_, by omega⟩
  · simp only [val_lastDigit]
    omega
  · simp only [val_lastDigit]
    omega

theorem code_lt (i : Instruction) : i.code < 65536 := by
  cases i
  case skipIfByte x b | skipUnlessByte x b | setByte x b | addByte x b | random x b =>
    have hb := b.toNat_lt
    simp only [code, withByte]
    omega
  all_goals
    simp only [code, withAddress, withByte, withPair]
    omega

theorem toNat_encode (i : Instruction) : i.encode.toNat = i.code := by
  have hi := code_lt i
  simp only [encode, UInt16.toNat_ofNat']
  omega

theorem decode_encode (i : Instruction) : decode i.encode = some i := by
  unfold decode
  rw [toNat_encode]
  cases i
  case clear | ret => rfl
  case jump a | call a | setIndex a | jumpFrom a =>
    simp only [code, head_withAddress, ofNat_withAddress]
  case skipIfByte x b | skipUnlessByte x b | setByte x b | addByte x b | random x b =>
    simp only [code, digits_withByte _ x b.toNat_lt, ofNat_withByte]
  case skipIfKey x | skipUnlessKey x =>
    simp [code, digits_withByte]
  case getDelay x | awaitKey x | setDelay x | setSound x | addIndex x | pointAtGlyph x
      | decimalDigits x | store x | fetch x =>
    simp [code, digits_withByte, ofDevice?]
  case skipIfEqual x y | skipUnlessEqual x y =>
    simp [code, digits_withPair]
  case copy x y | or x y | and x y | xor x y | add x y | sub x y | shiftRight x y | subFrom x y
      | shiftLeft x y =>
    simp [code, digits_withPair, ofArithmetic?]
  case draw x y n =>
    have hn : lastDigit (withPair 0xd x y n.val) = n := Fin.ext (digits_withPair 0xd x y n.isLt).2.2.2
    simp only [code, digits_withPair 0xd x y n.isLt, hn]

private theorem code_ofArithmetic? {x y : Register} {last : Nat} {i : Instruction}
    (h : ofArithmetic? x y last = some i) : i.code = withPair 0x8 x y last := by
  unfold ofArithmetic? at h
  split at h <;> cases h <;> rfl

private theorem code_ofDevice? {x : Register} {b : Nat} {i : Instruction}
    (h : ofDevice? x b = some i) : i.code = withByte 0xf x b := by
  unfold ofDevice? at h
  split at h <;> cases h <;> rfl

private theorem withAddress_ofNat {head w : Nat} (hw : w / 4096 = head) :
    withAddress head (BitVec.ofNat 12 w) = w := by
  simp only [withAddress, BitVec.toNat_ofNat]
  omega

private theorem withByte_lastDigit {head w : Nat} (hw : w / 4096 = head) :
    withByte head (lastDigit (w / 256)) (w % 256) = w := by
  simp only [withByte, val_lastDigit]
  omega

private theorem withPair_lastDigit {head w : Nat} (hw : w / 4096 = head) :
    withPair head (lastDigit (w / 256)) (lastDigit (w / 16)) (w % 16) = w := by
  simp only [withPair, val_lastDigit]
  omega

/-- Nothing is lost in decoding: the word is the one that the instruction is written as. -/
theorem code_of_decode {w : UInt16} {i : Instruction} (h : decode w = some i) :
    i.code = w.toNat := by
  dsimp only [decode] at h
  -- one case for each first digit, in order
  split at h
  case h_1 =>
    split_ifs at h with hc hr
    · cases h
      exact hc.symm
    · cases h
      exact hr.symm
  case h_2 hw | h_3 hw | h_11 hw | h_12 hw =>
    cases h
    exact withAddress_ofNat hw
  case h_4 hw | h_5 hw | h_7 hw | h_8 hw | h_13 hw =>
    cases h
    simpa only [code, UInt8.toNat_ofNat'] using withByte_lastDigit hw
  case h_6 hw | h_10 hw =>
    split_ifs at h with hl
    cases h
    simpa only [code, hl] using withPair_lastDigit hw
  case h_9 hw =>
    rw [code_ofArithmetic? h]
    exact withPair_lastDigit hw
  case h_14 hw =>
    cases h
    exact withPair_lastDigit hw
  case h_15 hw =>
    split_ifs at h with hs hu
    · cases h
      simpa only [code, hs] using withByte_lastDigit hw
    · cases h
      simpa only [code, hu] using withByte_lastDigit hw
  case h_16 hw =>
    rw [code_ofDevice? h]
    exact withByte_lastDigit hw
  case h_17 => cases h

theorem decode_eq_some_iff {w : UInt16} {i : Instruction} :
    decode w = some i ↔ i.encode = w := by
  constructor
  · intro h
    apply UInt16.toNat_inj.mp
    rw [toNat_encode, code_of_decode h]
  · rintro rfl
    exact decode_encode i

theorem decode_eq_none_iff {w : UInt16} : decode w = none ↔ ∀ i : Instruction, i.encode ≠ w := by
  rw [Option.eq_none_iff_forall_ne_some]
  exact forall_congr' fun i => not_congr decode_eq_some_iff

theorem decode_eq_call_iff {w : UInt16} : (∃ a, decode w = some (.call a)) ↔ w.toNat / 4096 = 2 := by
  constructor
  · rintro ⟨a, ha⟩
    rw [← code_of_decode ha]
    exact head_withAddress a
  · intro hw
    exact ⟨BitVec.ofNat 12 w.toNat, by simp only [decode, hw]⟩

theorem decode_eq_ret_iff {w : UInt16} : decode w = some .ret ↔ w = 0x00ee := by
  rw [decode_eq_some_iff]
  exact eq_comm

end Chip8.Instruction
