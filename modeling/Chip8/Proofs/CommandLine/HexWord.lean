import Chip8.CommandLine.Disassembler
import Chip8.CommandLine.Emulator
import Chip8.Proofs.Text.Numeral
import Mathlib.Data.List.Induction
import Mathlib.Data.Nat.Digits.Defs

/-! Hexadecimal arguments. A number of 16 bits is read in every way to write it: with any number of
marks `0x`, a plus sign or none, and digits in either case. Nothing else is read. -/
namespace Chip8

namespace Text

/-- The value of a digit in either case is its place among the sixteen digits. -/
def hexPlace (c : Char) : Nat := hexDigits.idxOf c.toLower

def hexMarks (count : Nat) : List Char := (List.replicate count ['0', 'x']).flatten

/-- A way to write a hexadecimal number: any number of marks `0x`, a plus sign or none, and at least
one digit. -/
structure HexSpelling where
  marks : Nat
  plus : Bool
  digits : List Char
  digits_ne_nil : digits ≠ []
  toLower_mem : ∀ c ∈ digits, c.toLower ∈ hexDigits

namespace HexSpelling

def numeral (s : HexSpelling) : List Char := (if s.plus then ['+'] else []) ++ s.digits

def chars (s : HexSpelling) : List Char := hexMarks s.marks ++ s.numeral

def value (s : HexSpelling) : Nat := Nat.ofDigits 16 (s.digits.reverse.map hexPlace)

end HexSpelling

/-- The text is a way to write the number, and no further mark follows its marks. -/
def Spells (text : String) (n : UInt16) : Prop :=
  ∃ s : HexSpelling, s.chars = text.toList ∧ ¬ ['0', 'x'] <+: s.numeral ∧ s.value = n.toNat

theorem digitValue?_hex (c : Char) :
    digitValue? 16 c = if c.toLower ∈ hexDigits then some (hexPlace c) else none := by
  rcases Nat.lt_or_ge c.toNat 128 with hlow | hhigh
  · have hall : ∀ k < 128, digitValue? 16 (Char.ofNat k) =
        if (Char.ofNat k).toLower ∈ hexDigits then some (hexPlace (Char.ofNat k)) else none := by
      decide
    have hc := hall c.toNat hlow
    rwa [Char.ofNat_toNat] at hc
  · -- beyond these there are no digits and no capital letters
    have hbeyond : ∀ d : Char, d.toNat < 128 → ¬ c ≤ d := by
      intro d hd hle
      have hnat : c.toNat ≤ d.toNat := hle
      omega
    have hlower : c.toLower = c := dif_neg fun h => hbeyond 'Z' (by decide) h.2
    have hnot : c ∉ hexDigits := by
      have hall : hexDigits.all (fun d => d.toNat < 128) = true := by decide
      intro hc
      have hlow := List.all_eq_true.mp hall c hc
      rw [decide_eq_true_eq] at hlow
      omega
    rw [hlower, if_neg hnot]
    simp [digitValue?, hbeyond]

theorem isSome_digitValue?_hex {c : Char} :
    (digitValue? 16 c).isSome = true ↔ c.toLower ∈ hexDigits := by
  rw [digitValue?_hex]
  split <;> simp_all

theorem digitsValue_eq_ofDigits {cs : List Char} (h : ∀ c ∈ cs, c.toLower ∈ hexDigits) :
    digitsValue 16 0 cs = Nat.ofDigits 16 (cs.reverse.map hexPlace) := by
  induction cs using List.reverseRecOn with
  | nil => rfl
  | append_singleton cs c ih =>
    rw [List.forall_mem_append] at h
    have hlast : digitValue? 16 c = some (hexPlace c) := by
      rw [digitValue?_hex, if_pos (h.2 c (List.mem_singleton_self c))]
    have hconcat : digitsValue 16 0 (cs ++ [c]) = 16 * digitsValue 16 0 cs + hexPlace c := by
      rw [digitsValue_append]
      simp [digitsValue, hlast]
    rw [hconcat, ih h.1, List.reverse_append, List.reverse_singleton, List.singleton_append,
      List.map_cons, Nat.ofDigits_cons, Nat.add_comm]

section Reading

variable {base limit n v : Nat} {cs : List Char}

theorem isSome_of_readDigits_eq_ok (h : readDigits base limit n cs = .ok v) :
    ∀ c ∈ cs, (digitValue? base c).isSome = true := by
  fun_induction readDigits base limit n cs with
  | case1 n => nofun
  | case2 n c rest hc => cases h
  | case3 n c rest d hc hfits ih =>
    rw [List.forall_mem_cons, hc]
    exact ⟨rfl, ih h⟩
  | case4 n c rest d hc hlarge => cases h

/-- Digits are read up to the one that makes their number too large. -/
theorem readDigits_eq_tooLarge (hd : ∀ c ∈ cs, (digitValue? base c).isSome = true)
    (hn : n ≤ limit) (hv : limit < digitsValue base n cs) :
    readDigits base limit n cs = .error .tooLarge := by
  fun_induction readDigits base limit n cs with
  | case1 n => exact absurd hn (Nat.not_le.mpr hv)
  | case2 n c rest hc =>
    have hsome := hd c List.mem_cons_self
    rw [hc] at hsome
    cases hsome
  | case3 n c rest d hc hfits ih =>
    rw [digitsValue, List.foldl_cons, hc] at hv
    exact ih (fun e he => hd e (List.mem_cons_of_mem c he)) hfits hv
  | case4 n c rest d hc hlarge => rfl

theorem digitValue?_plus (base : Nat) : digitValue? base '+' = none := by
  have hplus : ¬ ('0' ≤ '+' ∧ '+' ≤ '9') ∧ ¬ ('a' ≤ '+' ∧ '+' ≤ 'z') ∧
      ¬ ('A' ≤ '+' ∧ '+' ≤ 'Z') := by decide
  rw [digitValue?]
  simp only [if_neg hplus.1, if_neg hplus.2.1, if_neg hplus.2.2, Nat.lt_irrefl, if_false]

/-- A plus sign before digits makes no difference. -/
theorem readNumeral_eq_readDigits (plus : Bool) (hne : cs ≠ [])
    (hd : ∀ c ∈ cs, (digitValue? base c).isSome = true) :
    readNumeral base limit ((if plus then ['+'] else []) ++ cs) = readDigits base limit 0 cs := by
  obtain ⟨c, rest, rfl⟩ := List.exists_cons_of_ne_nil hne
  cases plus with
  | true => rfl
  | false =>
    have hc : c ≠ '+' := by
      rintro rfl
      have hsome := hd '+' List.mem_cons_self
      rw [digitValue?_plus] at hsome
      cases hsome
    rw [if_neg Bool.false_ne_true, List.nil_append, readNumeral.eq_def]
    split <;> simp_all

theorem exists_digits_of_readNumeral_eq_ok (h : readNumeral base limit cs = .ok v) :
    ∃ (plus : Bool) (digits : List Char), digits ≠ [] ∧
      cs = (if plus then ['+'] else []) ++ digits ∧ readDigits base limit 0 digits = .ok v := by
  unfold readNumeral at h
  split at h
  · cases h
  · cases h
  · rename_i digits hne
    exact ⟨true, digits, hne, rfl, h⟩
  · rename_i hne _ _
    exact ⟨false, cs, hne, rfl, h⟩

end Reading

theorem exists_marks (cs : List Char) : ∃ k, cs = hexMarks k ++ dropHexMarks cs := by
  fun_induction dropHexMarks cs with
  | case1 rest ih =>
    obtain ⟨k, hk⟩ := ih
    refine ⟨k + 1, ?_⟩
    rw [hexMarks, List.replicate_succ, List.flatten_cons, List.append_assoc]
    exact congrArg (['0', 'x'] ++ ·) hk
  | case2 cs _ => exact ⟨0, rfl⟩

theorem dropHexMarks_of_not_prefix {cs : List Char} (h : ¬ ['0', 'x'] <+: cs) :
    dropHexMarks cs = cs := by
  fun_cases dropHexMarks cs with
  | case1 rest => exact absurd (List.prefix_append ['0', 'x'] rest) h
  | case2 cs _ => rfl

theorem dropHexMarks_marks (k : Nat) {cs : List Char} (h : ¬ ['0', 'x'] <+: cs) :
    dropHexMarks (hexMarks k ++ cs) = cs := by
  induction k with
  | zero => exact dropHexMarks_of_not_prefix h
  | succ k ih => exact ih

namespace HexSpelling

variable (s : HexSpelling)

theorem mem_numeral {c : Char} (h : c ∈ s.numeral) : c = '+' ∨ c.toLower ∈ hexDigits := by
  unfold numeral at h
  rcases List.mem_append.mp h with hsign | hdigit
  · split at hsign
    · exact .inl (List.mem_singleton.mp hsign)
    · cases hsign
  · exact .inr (s.toLower_mem c hdigit)

theorem not_prefix_numeral : ¬ ['0', 'x'] <+: s.numeral := by
  rintro ⟨rest, hrest⟩
  have hx : 'x' ∈ s.numeral := by
    rw [← hrest]
    simp
  exact absurd (s.mem_numeral hx) (by decide)

theorem space_notMem_chars : ' ' ∉ s.chars := by
  intro h
  unfold chars at h
  rcases List.mem_append.mp h with hmarks | hnumeral
  · obtain ⟨mark, hmark, hspace⟩ := List.mem_flatten.mp hmarks
    rw [(List.mem_replicate.mp hmark).2] at hspace
    exact absurd hspace (by decide)
  · exact absurd (s.mem_numeral hnumeral) (by decide)

/-- Every way to write a number is read, unless the number is too large. -/
theorem readHexWord_eq {text : String} (h : s.chars = text.toList) :
    readHexWord text =
      if s.value ≤ 0xffff then .ok (UInt16.ofNat s.value) else .error .tooLarge := by
  have hd : ∀ c ∈ s.digits, (digitValue? 16 c).isSome = true :=
    fun c hc => isSome_digitValue?_hex.mpr (s.toLower_mem c hc)
  have hv : digitsValue 16 0 s.digits = s.value := digitsValue_eq_ofDigits s.toLower_mem
  have hnumeral : readNumeral 16 0xffff (dropHexMarks text.toList) =
      readDigits 16 0xffff 0 s.digits := by
    rw [← h, chars, dropHexMarks_marks s.marks s.not_prefix_numeral]
    exact readNumeral_eq_readDigits s.plus s.digits_ne_nil hd
  rw [readHexWord, hnumeral]
  split
  · rename_i hfits
    rw [← hv] at hfits
    rw [readDigits_eq_ok (by decide) hd hfits, hv]
    rfl
  · rename_i hlarge
    rw [← hv, Nat.not_le] at hlarge
    rw [readDigits_eq_tooLarge hd (Nat.zero_le _) hlarge]
    rfl

end HexSpelling

theorem exists_spelling_of_readHexWord_eq_ok {text : String} {n : UInt16}
    (h : readHexWord text = .ok n) : ∃ s : HexSpelling, s.chars = text.toList := by
  unfold readHexWord at h
  cases hread : readNumeral 16 0xffff (dropHexMarks text.toList) with
  | error e =>
    rw [hread] at h
    cases h
  | ok v =>
    obtain ⟨plus, digits, hne, hrest, hdigits⟩ := exists_digits_of_readNumeral_eq_ok hread
    obtain ⟨k, hk⟩ := exists_marks text.toList
    have hlower : ∀ c ∈ digits, c.toLower ∈ hexDigits := fun c hc =>
      isSome_digitValue?_hex.mp (isSome_of_readDigits_eq_ok hdigits c hc)
    refine ⟨⟨k, plus, digits, hne, hlower⟩, ?_⟩
    rw [hk, hrest]
    rfl

theorem readHexWord_eq_ok_iff (text : String) (n : UInt16) :
    readHexWord text = .ok n ↔ Spells text n := by
  constructor
  · intro h
    obtain ⟨s, hs⟩ := exists_spelling_of_readHexWord_eq_ok h
    refine ⟨s, hs, s.not_prefix_numeral, ?_⟩
    rw [s.readHexWord_eq hs] at h
    split at h
    · rename_i hfits
      cases h
      exact (UInt16.toNat_ofNat_of_lt' (Nat.lt_succ_of_le hfits)).symm
    · cases h
  · rintro ⟨s, hs, -, hvalue⟩
    have hfits : s.value ≤ 0xffff := by
      rw [hvalue]
      exact Nat.le_of_lt_succ n.toNat_lt
    rw [s.readHexWord_eq hs, if_pos hfits, hvalue, UInt16.ofNat_toNat]

theorem exists_readHexWord_eq_error_iff (text : String) :
    (∃ e, readHexWord text = .error e) ↔ ¬ ∃ n, Spells text n := by
  simp only [← readHexWord_eq_ok_iff]
  cases readHexWord text <;> simp

/-- A number as it is printed, after any number of marks, is a way to write it. -/
theorem spells_of_isHex {text : String} {k width : Nat} {n : UInt16} {digits : List Char}
    (h : text.toList = hexMarks k ++ digits) (hne : digits ≠ [])
    (hhex : IsHex width n.toNat digits) : Spells text n := by
  have hsmall : hexDigits.all (fun c => c.toLower == c) = true := by decide
  have hlower : ∀ c ∈ digits, c.toLower ∈ hexDigits := by
    intro c hc
    have hsame := List.all_eq_true.mp hsmall c (hhex.digits c hc)
    rw [beq_iff_eq] at hsame
    rw [hsame]
    exact hhex.digits c hc
  let s : HexSpelling := ⟨k, false, digits, hne, hlower⟩
  refine ⟨s, h.symm, s.not_prefix_numeral, ?_⟩
  rw [HexSpelling.value, ← digitsValue_eq_ofDigits s.toLower_mem, hhex.value]

end Text

namespace CommandLine
open Chip8.Text

theorem Emulator.readBreak_eq_ok_iff (text : String) (s t : Emulator.Settings) :
    Emulator.readBreak text s = .ok t ↔
      ∃ n, Spells text n ∧ t = { s with breakpoints := s.breakpoints ++ [n] } := by
  simp only [← readHexWord_eq_ok_iff, Emulator.readBreak]
  cases readHexWord text <;> simp [eq_comm]

theorem Disassembler.readLoadAddress_eq_ok_iff (text : String) (s t : Disassembler.Settings) :
    Disassembler.readLoadAddress text s = .ok t ↔
      ∃ n, Spells text n ∧ t = { s with loadAddress := n } := by
  simp only [← readHexWord_eq_ok_iff, Disassembler.readLoadAddress]
  cases readHexWord text <;> simp [eq_comm]

/-- Hexadecimal arguments are exactly the ways to write a number of 16 bits, and give its value. All
other texts are refused, and a number that was printed is read again. -/
theorem hex_arguments_read_exactly :
    (∀ text : String,
      (∀ n : UInt16, readHexWord text = .ok n ↔ Spells text n) ∧
      ((∃ e, readHexWord text = .error e) ↔ ¬ ∃ n, Spells text n) ∧
      (∀ s t, Emulator.readBreak text s = .ok t ↔
        ∃ n, Spells text n ∧ t = { s with breakpoints := s.breakpoints ++ [n] }) ∧
      (∀ s t, Disassembler.readLoadAddress text s = .ok t ↔
        ∃ n, Spells text n ∧ t = { s with loadAddress := n }) ∧
      (' ' ∈ text.toList → ∃ e, readHexWord text = .error e) ∧
      (∀ s : HexSpelling, s.chars = text.toList → 0xffff < s.value →
        ∃ e, readHexWord text = .error e)) ∧
    (∀ text ∈ ["", "0x", "+", "-1", "0X200"], ∃ e, readHexWord text = .error e) ∧
    ∀ (n : UInt16) (width : Nat), readHexWord (hex width n.toNat) = .ok n ∧
      readHexWord ("0x" ++ hex width n.toNat) = .ok n := by
  refine ⟨fun text => ⟨readHexWord_eq_ok_iff text, exists_readHexWord_eq_error_iff text,
    Emulator.readBreak_eq_ok_iff text, Disassembler.readLoadAddress_eq_ok_iff text, ?_, ?_⟩,
    ?_, ?_⟩
  · intro hspace
    rw [exists_readHexWord_eq_error_iff]
    rintro ⟨n, s, hs, -⟩
    rw [← hs] at hspace
    exact s.space_notMem_chars hspace
  · intro s hs hlarge
    exact ⟨.tooLarge, by rw [s.readHexWord_eq hs, if_neg (Nat.not_le.mpr hlarge)]⟩
  · have hrefused : ∀ text ∈ ["", "0x", "+", "-1", "0X200"],
        (readHexWord text).toOption = none := by decide
    intro text htext
    have hnone := hrefused text htext
    cases hread : readHexWord text with
    | error e => exact ⟨e, rfl⟩
    | ok n =>
      rw [hread] at hnone
      cases hnone
  · intro n width
    have hne := toList_hex_ne_nil width n.toNat
    have hhex := isHex_hex width n.toNat
    refine ⟨(readHexWord_eq_ok_iff _ n).mpr ?_, (readHexWord_eq_ok_iff _ n).mpr ?_⟩
    · exact spells_of_isHex (List.nil_append _).symm hne hhex (k := 0)
    · exact spells_of_isHex String.toList_append hne hhex (k := 1)

end CommandLine

end Chip8
