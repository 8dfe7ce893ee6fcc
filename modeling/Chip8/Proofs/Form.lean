import Chip8.Proofs.Codec
import Chip8.Registers
import Mathlib.Data.List.Forall2

/-! The 34 forms of instructions, digit by digit. A word stands for an instruction exactly if it
matches a form, and then it matches no other. -/
namespace Chip8

/-- The letters of operands: an address, a byte, two registers, and a number of rows. -/
inductive Letter where
  | a | b | x | y | n
  deriving DecidableEq

def Letter.limit : Letter → Nat
  | .a => 4096
  | .b => 256
  | .x | .y | .n => 16

/-- One hexadecimal digit of a form: always the same, or a digit of an operand. -/
inductive Slot where
  | fixed (d : Nat)
  | operand (l : Letter)
  deriving DecidableEq

def Slot.Admits : Slot → Nat → Prop
  | .fixed d, e => e = d
  | .operand _, _ => True

def wordDigits (w : UInt16) : List Nat :=
  [w.toNat / 4096, w.toNat / 256 % 16, w.toNat / 16 % 16, w.toNat % 16]

abbrev Form := List Slot

namespace Form

def Matches (f : Form) (w : UInt16) : Prop := f.Forall₂ Slot.Admits (wordDigits w)

/-- The number in the slots of an operand, the most significant digit first. -/
def read (f : Form) (l : Letter) (w : UInt16) : Nat :=
  (f.zip (wordDigits w)).foldl (fun k p => if p.1 = .operand l then 16 * k + p.2 else k) 0

def literal (d₁ d₂ d₃ d₄ : Nat) : Form := [.fixed d₁, .fixed d₂, .fixed d₃, .fixed d₄]

def address (head : Nat) : Form := [.fixed head, .operand .a, .operand .a, .operand .a]

def byte (head : Nat) : Form := [.fixed head, .operand .x, .operand .b, .operand .b]

def pair (head last : Nat) : Form := [.fixed head, .operand .x, .operand .y, .fixed last]

def sprite (head : Nat) : Form := [.fixed head, .operand .x, .operand .y, .operand .n]

def device (head d₃ d₄ : Nat) : Form := [.fixed head, .operand .x, .fixed d₃, .fixed d₄]

variable {w : UInt16} {head last d₁ d₂ d₃ d₄ : Nat}

theorem matches_literal : (literal d₁ d₂ d₃ d₄).Matches w ↔
    w.toNat / 4096 = d₁ ∧ w.toNat / 256 % 16 = d₂ ∧ w.toNat / 16 % 16 = d₃ ∧ w.toNat % 16 = d₄ := by
  simp [Matches, literal, wordDigits, Slot.Admits]

theorem matches_address : (address head).Matches w ↔ w.toNat / 4096 = head := by
  simp [Matches, address, wordDigits, Slot.Admits]

theorem matches_byte : (byte head).Matches w ↔ w.toNat / 4096 = head := by
  simp [Matches, byte, wordDigits, Slot.Admits]

theorem matches_pair :
    (pair head last).Matches w ↔ w.toNat / 4096 = head ∧ w.toNat % 16 = last := by
  simp [Matches, pair, wordDigits, Slot.Admits]

theorem matches_sprite : (sprite head).Matches w ↔ w.toNat / 4096 = head := by
  simp [Matches, sprite, wordDigits, Slot.Admits]

theorem matches_device : (device head d₃ d₄).Matches w ↔
    w.toNat / 4096 = head ∧ w.toNat / 16 % 16 = d₃ ∧ w.toNat % 16 = d₄ := by
  simp [Matches, device, wordDigits, Slot.Admits]

end Form

namespace Instruction

def form : Instruction → Form
  | .clear => .literal 0x0 0x0 0xe 0x0
  | .ret => .literal 0x0 0x0 0xe 0xe
  | .jump _ => .address 0x1
  | .call _ => .address 0x2
  | .skipIfByte _ _ => .byte 0x3
  | .skipUnlessByte _ _ => .byte 0x4
  | .skipIfEqual _ _ => .pair 0x5 0x0
  | .setByte _ _ => .byte 0x6
  | .addByte _ _ => .byte 0x7
  | .copy _ _ => .pair 0x8 0x0
  | .or _ _ => .pair 0x8 0x1
  | .and _ _ => .pair 0x8 0x2
  | .xor _ _ => .pair 0x8 0x3
  | .add _ _ => .pair 0x8 0x4
  | .sub _ _ => .pair 0x8 0x5
  | .shiftRight _ _ => .pair 0x8 0x6
  | .subFrom _ _ => .pair 0x8 0x7
  | .shiftLeft _ _ => .pair 0x8 0xe
  | .skipUnlessEqual _ _ => .pair 0x9 0x0
  | .setIndex _ => .address 0xa
  | .jumpFrom _ => .address 0xb
  | .random _ _ => .byte 0xc
  | .draw _ _ _ => .sprite 0xd
  | .skipIfKey _ => .device 0xe 0x9 0xe
  | .skipUnlessKey _ => .device 0xe 0xa 0x1
  | .getDelay _ => .device 0xf 0x0 0x7
  | .awaitKey _ => .device 0xf 0x0 0xa
  | .setDelay _ => .device 0xf 0x1 0x5
  | .setSound _ => .device 0xf 0x1 0x8
  | .addIndex _ => .device 0xf 0x1 0xe
  | .pointAtGlyph _ => .device 0xf 0x2 0x9
  | .decimalDigits _ => .device 0xf 0x3 0x3
  | .store _ => .device 0xf 0x5 0x5
  | .fetch _ => .device 0xf 0x6 0x5

def samples : List Instruction := [
  .clear, .ret, .jump 0, .call 0, .skipIfByte v0 0, .skipUnlessByte v0 0, .skipIfEqual v0 v0,
  .setByte v0 0, .addByte v0 0, .copy v0 v0, .or v0 v0, .and v0 v0, .xor v0 v0, .add v0 v0,
  .sub v0 v0, .shiftRight v0 v0, .subFrom v0 v0, .shiftLeft v0 v0, .skipUnlessEqual v0 v0,
  .setIndex 0, .jumpFrom 0, .random v0 0, .draw v0 v0 (lastDigit 0), .skipIfKey v0,
  .skipUnlessKey v0, .getDelay v0, .awaitKey v0, .setDelay v0, .setSound v0, .addIndex v0,
  .pointAtGlyph v0, .decimalDigits v0, .store v0, .fetch v0]

def forms : List Form := samples.map form

theorem form_mem_forms (i : Instruction) : i.form ∈ forms := by
  cases i <;> simp [forms, samples, form]

def operands : Instruction → List (Letter × Nat)
  | .clear | .ret => []
  | .jump a | .call a | .setIndex a | .jumpFrom a => [(.a, a.toNat)]
  | .skipIfByte x b | .skipUnlessByte x b | .setByte x b | .addByte x b | .random x b =>
    [(.x, x.val), (.b, b.toNat)]
  | .skipIfEqual x y | .skipUnlessEqual x y | .copy x y | .or x y | .and x y | .xor x y | .add x y
  | .sub x y | .shiftRight x y | .subFrom x y | .shiftLeft x y =>
    [(.x, x.val), (.y, y.val)]
  | .draw x y n => [(.x, x.val), (.y, y.val), (.n, n.val)]
  | .skipIfKey x | .skipUnlessKey x | .getDelay x | .awaitKey x | .setDelay x | .setSound x
  | .addIndex x | .pointAtGlyph x | .decimalDigits x | .store x | .fetch x =>
    [(.x, x.val)]

section Families

variable {w : UInt16} {head last : Nat}

private theorem withAddress_eq_iff (a : Address) :
    withAddress head a = w.toNat ↔
      (Form.address head).Matches w ∧ (Form.address head).read .a w = a.toNat := by
  have ha := a.isLt
  have hr : (Form.address head).read .a w =
      16 * (16 * (16 * 0 + w.toNat / 256 % 16) + w.toNat / 16 % 16) + w.toNat % 16 := rfl
  rw [Form.matches_address, hr, withAddress]
  omega

private theorem withByte_eq_iff (x : Register) (b : UInt8) :
    withByte head x b.toNat = w.toNat ↔
      (Form.byte head).Matches w ∧ (Form.byte head).read .x w = x.val ∧
        (Form.byte head).read .b w = b.toNat := by
  have hx := x.isLt
  have hb := b.toNat_lt
  have hrx : (Form.byte head).read .x w = 16 * 0 + w.toNat / 256 % 16 := rfl
  have hrb : (Form.byte head).read .b w = 16 * (16 * 0 + w.toNat / 16 % 16) + w.toNat % 16 := rfl
  rw [Form.matches_byte, hrx, hrb, withByte]
  omega

private theorem withPair_eq_iff (x y : Register) (hl : last < 16) :
    withPair head x y last = w.toNat ↔
      (Form.pair head last).Matches w ∧ (Form.pair head last).read .x w = x.val ∧
        (Form.pair head last).read .y w = y.val := by
  have hx := x.isLt
  have hy := y.isLt
  have hrx : (Form.pair head last).read .x w = 16 * 0 + w.toNat / 256 % 16 := rfl
  have hry : (Form.pair head last).read .y w = 16 * 0 + w.toNat / 16 % 16 := rfl
  rw [Form.matches_pair, hrx, hry, withPair]
  omega

private theorem withPair_eq_iff_sprite (x y : Register) (n : Fin 16) :
    withPair head x y n.val = w.toNat ↔
      (Form.sprite head).Matches w ∧ (Form.sprite head).read .x w = x.val ∧
        (Form.sprite head).read .y w = y.val ∧ (Form.sprite head).read .n w = n.val := by
  have hx := x.isLt
  have hy := y.isLt
  have hn := n.isLt
  have hrx : (Form.sprite head).read .x w = 16 * 0 + w.toNat / 256 % 16 := rfl
  have hry : (Form.sprite head).read .y w = 16 * 0 + w.toNat / 16 % 16 := rfl
  have hrn : (Form.sprite head).read .n w = 16 * 0 + w.toNat % 16 := rfl
  rw [Form.matches_sprite, hrx, hry, hrn, withPair]
  omega

private theorem withByte_eq_iff_device {d₃ d₄ b : Nat} (x : Register) (hb : 16 * d₃ + d₄ = b)
    (h₃ : d₃ < 16) (h₄ : d₄ < 16) :
    withByte head x b = w.toNat ↔
      (Form.device head d₃ d₄).Matches w ∧ (Form.device head d₃ d₄).read .x w = x.val := by
  have hx := x.isLt
  have hr : (Form.device head d₃ d₄).read .x w = 16 * 0 + w.toNat / 256 % 16 := rfl
  rw [Form.matches_device, hr, withByte]
  omega

end Families

/-- A word is the word of an instruction exactly if it has the digits of its form, with the
operands in their places. -/
theorem encode_eq_iff {w : UInt16} {i : Instruction} :
    i.encode = w ↔ i.form.Matches w ∧ ∀ p ∈ i.operands, i.form.read p.1 w = p.2 := by
  rw [← UInt16.toNat_inj, toNat_encode]
  cases i
  case clear | ret =>
    simp only [form, Form.matches_literal, operands, code, List.not_mem_nil, false_implies,
      implies_true, and_true]
    omega
  case jump a | call a | setIndex a | jumpFrom a =>
    simpa [form, operands, code] using withAddress_eq_iff a
  case skipIfByte x b | skipUnlessByte x b | setByte x b | addByte x b | random x b =>
    simpa [form, operands, code] using withByte_eq_iff x b
  case skipIfEqual x y | skipUnlessEqual x y | copy x y | or x y | and x y | xor x y | add x y
      | sub x y | shiftRight x y | subFrom x y | shiftLeft x y =>
    simpa [form, operands, code] using withPair_eq_iff x y (by decide)
  case draw x y n =>
    simpa [form, operands, code] using withPair_eq_iff_sprite x y n
  case skipIfKey x | skipUnlessKey x | getDelay x | awaitKey x | setDelay x | setSound x
      | addIndex x | pointAtGlyph x | decimalDigits x | store x | fetch x =>
    simp only [form, operands, code, List.forall_mem_singleton]
    exact withByte_eq_iff_device x rfl (by decide) (by decide)

/-- A word that matches a form decodes to an instruction of that form. -/
theorem map_form_decode {w : UInt16} {i : Instruction} (h : i.form.Matches w) :
    (decode w).map form = some i.form := by
  cases i
  case clear =>
    obtain ⟨h₁, h₂, h₃, h₄⟩ := Form.matches_literal.mp h
    have hc : w.toNat = 0x00e0 := by omega
    simp [decode, hc, form]
  case ret =>
    obtain ⟨h₁, h₂, h₃, h₄⟩ := Form.matches_literal.mp h
    have hc : w.toNat = 0x00ee := by omega
    simp [decode, hc, form]
  case jump | call | setIndex | jumpFrom =>
    have hd := Form.matches_address.mp h
    simp only [decode, hd, Option.map_some, form]
  case skipIfByte | skipUnlessByte | setByte | addByte | random =>
    have hd := Form.matches_byte.mp h
    simp only [decode, hd, Option.map_some, form]
  case draw =>
    have hd := Form.matches_sprite.mp h
    simp only [decode, hd, Option.map_some, form]
  case skipIfEqual | skipUnlessEqual | copy | or | and | xor | add | sub | shiftRight | subFrom
      | shiftLeft =>
    obtain ⟨hd, hl⟩ := Form.matches_pair.mp h
    simp [decode, hd, hl, ofArithmetic?, form]
  case skipIfKey | skipUnlessKey | getDelay | awaitKey | setDelay | setSound | addIndex
      | pointAtGlyph | decimalDigits | store | fetch =>
    obtain ⟨hd, h₃, h₄⟩ := Form.matches_device.mp h
    have hb : w.toNat % 256 = 16 * (w.toNat / 16 % 16) + w.toNat % 16 := by omega
    simp [decode, hd, hb, h₃, h₄, ofDevice?, form]

/-- The form that a word matches is the form of the instruction that it decodes to. -/
theorem map_form_decode_eq_some_iff {w : UInt16} {f : Form} :
    (decode w).map form = some f ↔ f ∈ forms ∧ f.Matches w := by
  constructor
  · intro h
    obtain ⟨i, hi, rfl⟩ := Option.map_eq_some_iff.mp h
    exact ⟨form_mem_forms i, (encode_eq_iff.mp (decode_eq_some_iff.mp hi)).1⟩
  · rintro ⟨hf, hw⟩
    obtain ⟨i, -, rfl⟩ := List.mem_map.mp hf
    exact map_form_decode hw

theorem operand_lt {i : Instruction} {p : Letter × Nat} (h : p ∈ i.operands) :
    p.2 < p.1.limit := by
  cases i
  case clear | ret => cases h
  case jump a | call a | setIndex a | jumpFrom a =>
    obtain rfl := List.mem_singleton.mp h
    exact a.isLt
  case skipIfByte x b | skipUnlessByte x b | setByte x b | addByte x b | random x b =>
    rcases List.mem_pair.mp h with rfl | rfl
    · exact x.isLt
    · exact b.toNat_lt
  case skipIfEqual x y | skipUnlessEqual x y | copy x y | or x y | and x y | xor x y | add x y
      | sub x y | shiftRight x y | subFrom x y | shiftLeft x y =>
    rcases List.mem_pair.mp h with rfl | rfl
    · exact x.isLt
    · exact y.isLt
  case draw x y n =>
    rcases List.mem_cons.mp h with rfl | h
    · exact x.isLt
    rcases List.mem_pair.mp h with rfl | rfl
    · exact y.isLt
    · exact n.isLt
  case skipIfKey x | skipUnlessKey x | getDelay x | awaitKey x | setDelay x | setSound x
      | addIndex x | pointAtGlyph x | decimalDigits x | store x | fetch x =>
    obtain rfl := List.mem_singleton.mp h
    exact x.isLt

theorem readBytes_eq_ok_iff {high low : UInt8} {rest : List UInt8} {k : Nat} {i : Instruction} :
    readBytes (high :: low :: rest) = .ok (k, i) ↔ k = 2 ∧ i.encode = wordOfBytes high low := by
  rw [← decode_eq_some_iff, readBytes]
  cases decode (wordOfBytes high low) with
  | none => simp
  | some j => simp [eq_comm]

theorem bigEndianBytes_wordOfBytes (high low : UInt8) :
    bigEndianBytes 2 (wordOfBytes high low).toNat = [high, low] := by
  have hh := high.toNat_lt
  have hl := low.toNat_lt
  have h₁ : UInt8.ofNat ((256 * high.toNat + low.toNat) / 256) = high := by
    apply UInt8.toNat_inj.mp
    rw [UInt8.toNat_ofNat']
    omega
  have h₂ : UInt8.ofNat (256 * high.toNat + low.toNat) = low := by
    apply UInt8.toNat_inj.mp
    rw [UInt8.toNat_ofNat']
    omega
  rw [toNat_wordOfBytes]
  simp [bigEndianBytes, h₁, h₂]

theorem exists_bigEndianBytes (w : UInt16) :
    ∃ high low, bigEndianBytes 2 w.toNat = [high, low] ∧ wordOfBytes high low = w := by
  refine ⟨UInt8.ofNat (w.toNat / 256), UInt8.ofNat w.toNat, rfl, ?_⟩
  have hw := w.toNat_lt
  apply UInt16.toNat_inj.mp
  rw [toNat_wordOfBytes, UInt8.toNat_ofNat', UInt8.toNat_ofNat']
  omega

theorem writeBytes_cons_cons (i : Instruction) (a b : UInt8) (tail : List UInt8) :
    i.writeBytes (a :: b :: tail) = .ok (2, bigEndianBytes 2 i.encode.toNat ++ tail) := by
  rw [toNat_encode]
  rfl

theorem writeBytes_of_lt (i : Instruction) {buffer : List UInt8} (h : buffer.length < 2) :
    i.writeBytes buffer = .error .unexpectedEnd := by
  match buffer with
  | [] => rfl
  | [_] => rfl
  | _ :: _ :: _ =>
    rw [List.length_cons, List.length_cons] at h
    omega

theorem readBytes_of_writeBytes (i : Instruction) (a b : UInt8) (tail rest : List UInt8) :
    ∃ out, i.writeBytes (a :: b :: tail) = .ok (2, out) ∧ readBytes (out ++ rest) = .ok (2, i) := by
  obtain ⟨high, low, hb, hw⟩ := exists_bigEndianBytes i.encode
  refine ⟨_, writeBytes_cons_cons i a b tail, ?_⟩
  rw [hb]
  exact readBytes_eq_ok_iff.mpr ⟨rfl, hw.symm⟩

theorem decode_eq_some_iff_readBytes {w : UInt16} {i : Instruction} :
    decode w = some i ↔ readBytes (bigEndianBytes 2 w.toNat) = .ok (2, i) := by
  obtain ⟨high, low, hb, rfl⟩ := exists_bigEndianBytes w
  rw [hb, readBytes_eq_ok_iff, decode_eq_some_iff]
  simp

theorem bijective_decode :
    Function.Bijective fun w : { w : UInt16 // (decode w).isSome } => (decode w.1).get w.2 := by
  constructor
  · rintro ⟨w, hw⟩ ⟨w', hw'⟩ h
    have he := decode_eq_some_iff.mp (Option.some_get hw).symm
    have he' := decode_eq_some_iff.mp (Option.some_get hw').symm
    apply Subtype.ext
    exact he.symm.trans ((congrArg encode h).trans he')
  · intro i
    have hi := decode_encode i
    refine ⟨⟨i.encode, by rw [hi]; rfl⟩, ?_⟩
    simp [hi]

/-- A word is read as an instruction exactly if it matches one of the 34 forms, with the operands in
their places, and what is written is read back. -/
theorem codec_exact_and_invertible :
    (forms.length = 34 ∧ forms.Nodup) ∧
    (∀ (high low : UInt8) (rest : List UInt8),
      readBytes (high :: low :: rest) = readBytes [high, low] ∧
      ((∃ i, readBytes (high :: low :: rest) = .ok (2, i)) ↔
        ∃ f ∈ forms, f.Matches (wordOfBytes high low)) ∧
      ∀ k i, readBytes (high :: low :: rest) = .ok (k, i) →
        k = 2 ∧ (∃! f, f ∈ forms ∧ f.Matches (wordOfBytes high low)) ∧
        i.form.Matches (wordOfBytes high low) ∧
        (∀ p ∈ i.operands, i.form.read p.1 (wordOfBytes high low) = p.2 ∧ p.2 < p.1.limit) ∧
        (∀ a b tail, i.writeBytes (a :: b :: tail) = .ok (2, high :: low :: tail)) ∧
        ∀ buffer : List UInt8, buffer.length < 2 →
          i.writeBytes buffer = .error .unexpectedEnd) ∧
    (∀ (i : Instruction) (a b : UInt8) (tail rest : List UInt8), ∃ out,
      i.writeBytes (a :: b :: tail) = .ok (2, out) ∧ readBytes (out ++ rest) = .ok (2, i)) ∧
    (∀ w i, decode w = some i ↔ readBytes (bigEndianBytes 2 w.toNat) = .ok (2, i)) ∧
    Function.Bijective fun w : { w : UInt16 // (decode w).isSome } => (decode w.1).get w.2 := by
  refine ⟨⟨rfl, by decide⟩, ?_, readBytes_of_writeBytes, fun _ _ => decode_eq_some_iff_readBytes,
    bijective_decode⟩
  intro high low rest
  refine ⟨rfl, ?_, ?_⟩
  · constructor
    · rintro ⟨i, hi⟩
      have he := (readBytes_eq_ok_iff.mp hi).2
      exact ⟨i.form, form_mem_forms i, (encode_eq_iff.mp he).1⟩
    · rintro ⟨f, hf, hw⟩
      obtain ⟨i, hi, -⟩ := Option.map_eq_some_iff.mp (map_form_decode_eq_some_iff.mpr ⟨hf, hw⟩)
      exact ⟨i, readBytes_eq_ok_iff.mpr ⟨rfl, decode_eq_some_iff.mp hi⟩⟩
  · intro k i hi
    obtain ⟨hk, he⟩ := readBytes_eq_ok_iff.mp hi
    obtain ⟨hm, ho⟩ := encode_eq_iff.mp he
    refine ⟨hk, ⟨i.form, ⟨form_mem_forms i, hm⟩, ?_⟩, hm, ?_, ?_, fun _ => writeBytes_of_lt i⟩
    · intro f hf
      -- the form is that of the decoded instruction, and there is only one of these
      have hd := map_form_decode_eq_some_iff.mpr hf
      rw [decode_eq_some_iff.mpr he] at hd
      exact (Option.some.inj hd).symm
    · exact fun p hp => ⟨ho p hp, operand_lt hp⟩
    · intro a b tail
      rw [writeBytes_cons_cons, he, bigEndianBytes_wordOfBytes]
      rfl

end Instruction

end Chip8
