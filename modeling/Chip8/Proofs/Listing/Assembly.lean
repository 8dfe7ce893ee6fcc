import Chip8.Proofs.Listing.Colours
import Mathlib.Data.List.Forall2

/-! Mnemonics read back. An assembler for the column of mnemonics of a listing finds every word
again, whether it is an instruction or not, so different programs have different columns. -/
namespace Chip8.Assembly
open Chip8.Text

inductive Operand where
  /-- A register, as in `vA`. -/
  | register (x : Register)
  /-- A number after `#`. -/
  | number (n : Nat)
  /-- An address after `$`. -/
  | marked (n : Nat)
  /-- A number with nothing before it. -/
  | bare (n : Nat)
  | place (name : String)
  deriving DecidableEq

/-- The operands that are neither registers nor numbers. -/
def places : List String := ["I", "DT", "ST", "K", "F", "B", "[I]"]

def readNumber? (digits : List Char) : Option Nat := (readDigits 16 0xffff 0 digits).toOption

def Operand.read? (cs : List Char) : Option Operand :=
  if String.ofList cs ∈ places then some (.place (String.ofList cs))
  else
    match cs with
    | 'v' :: digits => (readNumber? digits).map fun n => .register (lastDigit n)
    | '#' :: digits => (readNumber? digits).map .number
    | '$' :: digits => (readNumber? digits).map .marked
    | digits => (readNumber? digits).map .bare

/-- The instruction with a name and operands, by the kinds of the operands. -/
def instruction? (name : String) : List Operand → Option Instruction
  | [] => [("cls", .clear), ("ret", .ret)].lookup name
  | [.bare a] => [("jp", .jump (.ofNat 12 a)), ("call", .call (.ofNat 12 a))].lookup name
  | [.register x] => [("skp", .skipIfKey x), ("sknp", .skipUnlessKey x)].lookup name
  | [.register x, .number b] =>
    [("se", .skipIfByte x (.ofNat b)), ("sne", .skipUnlessByte x (.ofNat b)),
      ("ld", .setByte x (.ofNat b)), ("add", .addByte x (.ofNat b)),
      ("rnd", .random x (.ofNat b))].lookup name
  | [.register x, .register y] =>
    [("se", .skipIfEqual x y), ("sne", .skipUnlessEqual x y), ("ld", .copy x y), ("or", .or x y),
      ("and", .and x y), ("xor", .xor x y), ("add", .add x y), ("sub", .sub x y),
      ("subn", .subFrom x y), ("shr", .shiftRight x y), ("shl", .shiftLeft x y)].lookup name
  | [.register x, .register y, .number n] => [("drw", .draw x y (lastDigit n))].lookup name
  | [.register _, .marked a] => [("jp", .jumpFrom (.ofNat 12 a))].lookup name
  | [.place place, .marked a] => [("ld I", .setIndex (.ofNat 12 a))].lookup (name ++ " " ++ place)
  | [.register x, .place place] =>
    [("ld DT", .getDelay x), ("ld K", .awaitKey x), ("ld [I]", .fetch x)].lookup
      (name ++ " " ++ place)
  | [.place place, .register x] =>
    [("ld DT", .setDelay x), ("ld ST", .setSound x), ("add I", .addIndex x),
      ("ld F", .pointAtGlyph x), ("ld B", .decimalDigits x), ("ld [I]", .store x)].lookup
      (name ++ " " ++ place)
  | _ => none

def word? (name : String) (operands : List Operand) : Option UInt16 :=
  match name, operands with
  | "inval", [.bare n] => some (.ofNat n)
  | _, _ => (instruction? name operands).map Instruction.encode

def withoutBlanks (cs : List Char) : List Char := cs.filter (· ≠ ' ')

def operandTexts (cs : List Char) : List (List Char) :=
  if cs = [] then [] else (withoutBlanks cs).splitOn ','

/-- Reads a mnemonic: a name that takes seven columns, and operands. -/
def readWord? (text : String) : Option UInt16 := do
  let operands ← (operandTexts (text.toList.drop 7)).mapM Operand.read?
  word? (.ofList (withoutBlanks (text.toList.take 7))) operands

/-- The bytes that a column of mnemonics stands for, whatever its colours. -/
def assemble? (column : List String) : Option (List UInt8) :=
  (column.mapM fun text => readWord? (unstyled text)).map fun words =>
    words.flatMap fun w => bigEndianBytes 2 w.toNat

/-- The text is read as the operand, and holds none of the characters that separate operands. -/
structure Reads (text : String) (o : Operand) : Prop where
  read : Operand.read? text.toList = some o
  noBlank : ' ' ∉ text.toList
  noComma : ',' ∉ text.toList
  notEmpty : text ≠ ""

theorem readNumber?_hex (width : Nat) {n : Nat} (h : n ≤ 0xffff) :
    readNumber? (hex width n).toList = some n := by
  rw [readNumber?, readDigits_hex width h]
  rfl

theorem reads_place {name : String} (h : name ∈ places) : Reads name (.place name) := by
  have hall : ∀ name ∈ places, ' ' ∉ name.toList ∧ ',' ∉ name.toList ∧ name ≠ "" := by decide
  obtain ⟨hblank, hcomma, hempty⟩ := hall name h
  refine ⟨?_, hblank, hcomma, hempty⟩
  unfold Operand.read?
  rw [String.ofList_toList, if_pos h]

theorem reads_register (x : Register) : Reads (Instruction.registerText x) (.register x) := by
  have hall : ∀ x, Operand.read? (Instruction.registerText x).toList = some (.register x) ∧
      ' ' ∉ (Instruction.registerText x).toList ∧ ',' ∉ (Instruction.registerText x).toList ∧
      Instruction.registerText x ≠ "" := by decide
  obtain ⟨hread, hblank, hcomma, hempty⟩ := hall x
  exact ⟨hread, hblank, hcomma, hempty⟩

/-- No operand that is a number looks like a place. -/
theorem notMem_places {c : Char} {cs : List Char} (h : c ∈ '#' :: '$' :: hexDigits) :
    String.ofList (c :: cs) ∉ places := by
  have hall : ∀ name ∈ places, name.toList.head? ∉ ('#' :: '$' :: hexDigits).map some := by
    decide
  intro hplace
  refine hall _ hplace ?_
  rw [String.toList_ofList]
  exact List.mem_map_of_mem h

theorem reads_of_digits {text : String} {o : Operand} {c : Char} {cs : List Char}
    (htext : text.toList = c :: cs) (hc : c ∈ '#' :: '$' :: hexDigits)
    (hcs : ∀ d ∈ cs, d ∈ hexDigits) (h : Operand.read? (c :: cs) = some o) : Reads text o := by
  have hblank : ' ' ∉ '#' :: '$' :: hexDigits := by decide
  have hcomma : ',' ∉ '#' :: '$' :: hexDigits := by decide
  have hmem : ∀ d ∈ text.toList, d ∈ '#' :: '$' :: hexDigits := by
    intro d hd
    rw [htext] at hd
    rcases List.mem_cons.mp hd with rfl | hd
    · exact hc
    · exact List.mem_cons_of_mem _ (List.mem_cons_of_mem _ (hcs d hd))
  refine ⟨htext ▸ h, fun hd => hblank (hmem ' ' hd), fun hd => hcomma (hmem ',' hd), ?_⟩
  rintro rfl
  cases htext

theorem reads_number (width : Nat) {n : Nat} (h : n ≤ 0xffff) :
    Reads ("#" ++ hex width n) (.number n) := by
  refine reads_of_digits String.toList_append (by decide) (isHex_hex width n).digits ?_
  unfold Operand.read?
  rw [if_neg (notMem_places (by decide))]
  exact congrArg (Option.map Operand.number) (readNumber?_hex width h)

theorem reads_marked (width : Nat) {n : Nat} (h : n ≤ 0xffff) :
    Reads ("$" ++ hex width n) (.marked n) := by
  refine reads_of_digits String.toList_append (by decide) (isHex_hex width n).digits ?_
  unfold Operand.read?
  rw [if_neg (notMem_places (by decide))]
  exact congrArg (Option.map Operand.marked) (readNumber?_hex width h)

theorem reads_bare {width n : Nat} (hw : 0 < width) (h : n ≤ 0xffff) :
    Reads (hex width n) (.bare n) := by
  have hhex := isHex_hex width n
  have hread := readNumber?_hex width h
  obtain ⟨c, cs, htext⟩ := List.exists_cons_of_length_pos (Nat.lt_of_lt_of_le hw hhex.wide)
  have hdigits := hhex.digits
  rw [htext] at hread hdigits
  have hc : c ∈ hexDigits := hdigits c List.mem_cons_self
  have hv : c ≠ 'v' := ne_of_mem_of_not_mem hc (by decide)
  have hnumber : c ≠ '#' := ne_of_mem_of_not_mem hc (by decide)
  have hdollar : c ≠ '$' := ne_of_mem_of_not_mem hc (by decide)
  refine reads_of_digits htext (List.mem_cons_of_mem _ (List.mem_cons_of_mem _ hc))
    (fun d hd => hdigits d (List.mem_cons_of_mem c hd)) ?_
  unfold Operand.read?
  rw [if_neg (notMem_places (List.mem_cons_of_mem _ (List.mem_cons_of_mem _ hc)))]
  split
  · rename_i heq
    exact absurd (List.cons.inj heq).1 hv
  · rename_i heq
    exact absurd (List.cons.inj heq).1 hnumber
  · rename_i heq
    exact absurd (List.cons.inj heq).1 hdollar
  · rw [hread]
    rfl

theorem withoutBlanks_of_notMem {cs : List Char} (h : ' ' ∉ cs) : withoutBlanks cs = cs := by
  rw [withoutBlanks, List.filter_eq_self]
  intro c hc
  rw [decide_eq_true_iff]
  rintro rfl
  exact h hc

theorem withoutBlanks_append (front back : List Char) :
    withoutBlanks (front ++ back) = withoutBlanks front ++ withoutBlanks back :=
  List.filter_append ..

/-- Without blanks, operands are separated by commas alone. -/
theorem withoutBlanks_intercalate {texts : List String} (h : ∀ t ∈ texts, ' ' ∉ t.toList) :
    withoutBlanks (", ".intercalate texts).toList =
      [','].intercalate (texts.map String.toList) := by
  induction texts with
  | nil => rfl
  | cons t texts ih =>
    have ht := withoutBlanks_of_notMem (h t List.mem_cons_self)
    have hrest := ih fun u hu => h u (List.mem_cons_of_mem t hu)
    cases texts with
    | nil => simpa using ht
    | cons u texts =>
      rw [String.intercalate_cons_cons, String.toList_append, String.toList_append,
        withoutBlanks_append, withoutBlanks_append, ht, hrest]
      simp only [List.map_cons, List.intercalate_cons_cons]
      rfl

theorem operandTexts_intercalate {texts : List String} (h : ∀ t ∈ texts, ∃ o, Reads t o) :
    operandTexts (", ".intercalate texts).toList = texts.map String.toList := by
  have hblanks := withoutBlanks_intercalate fun t ht => (h t ht).elim fun _ hr => hr.noBlank
  cases texts with
  | nil => rfl
  | cons t texts =>
    obtain ⟨o, ht⟩ := h t List.mem_cons_self
    have hfirst : t.toList ≠ [] := mt String.toList_eq_nil_iff.mp ht.notEmpty
    have hjoined : (", ".intercalate (t :: texts)).toList ≠ [] := by
      intro hnil
      rw [hnil] at hblanks
      cases texts with
      | nil => exact hfirst (by simpa [withoutBlanks] using hblanks)
      | cons u texts => simp [withoutBlanks, List.intercalate_cons_cons] at hblanks
    rw [operandTexts, if_neg hjoined, hblanks]
    refine List.splitOn_intercalate ',' ?_ (List.cons_ne_nil _ _)
    intro l hl
    obtain ⟨u, hu, rfl⟩ := List.mem_map.mp hl
    exact (h u hu).elim fun _ hr => hr.noComma

theorem exists_reads {texts : List String} {operands : List Operand}
    (h : List.Forall₂ Reads texts operands) : ∀ t ∈ texts, ∃ o, Reads t o := by
  induction h with
  | nil => simp
  | cons ht _ ih =>
    intro u hu
    rcases List.mem_cons.mp hu with rfl | hu
    · exact ⟨_, ht⟩
    · exact ih u hu

theorem mapM_read? {texts : List String} {operands : List Operand}
    (h : List.Forall₂ Reads texts operands) :
    (texts.map String.toList).mapM Operand.read? = some operands := by
  induction h with
  | nil => rfl
  | cons ht _ ih => simp [ht.read, ih]

/-- A line is read by its name and operands. -/
theorem readWord?_eq {head : String} {texts : List String} {operands : List Operand}
    (hhead : head.toList.length = 7) (h : List.Forall₂ Reads texts operands) :
    readWord? (head ++ ", ".intercalate texts) =
      word? (.ofList (withoutBlanks head.toList)) operands := by
  have htake : (head ++ ", ".intercalate texts).toList.take 7 = head.toList := by
    rw [String.toList_append, List.take_left' hhead]
  have hdrop : (head ++ ", ".intercalate texts).toList.drop 7 =
      (", ".intercalate texts).toList := by
    rw [String.toList_append, List.drop_left' hhead]
  rw [readWord?, htake, hdrop, operandTexts_intercalate (exists_reads h), mapM_read? h]
  rfl

section Shapes

variable {head s t u : String} {a b c : Operand}

theorem readWord?_one (hhead : head.toList.length = 7) (hs : Reads s a) :
    readWord? (head ++ s) = word? (.ofList (withoutBlanks head.toList)) [a] := by
  have h := readWord?_eq hhead (.cons hs .nil)
  rwa [String.intercalate_singleton] at h

theorem readWord?_two (hhead : head.toList.length = 7) (hs : Reads s a) (ht : Reads t b) :
    readWord? (head ++ s ++ ", " ++ t) =
      word? (.ofList (withoutBlanks head.toList)) [a, b] := by
  have h := readWord?_eq hhead (.cons hs (.cons ht .nil))
  simpa only [String.intercalate_cons_cons, String.intercalate_singleton, String.append_assoc]
    using h

theorem readWord?_three (hhead : head.toList.length = 7) (hs : Reads s a) (ht : Reads t b)
    (hu : Reads u c) :
    readWord? (head ++ s ++ ", " ++ t ++ ", " ++ u) =
      word? (.ofList (withoutBlanks head.toList)) [a, b, c] := by
  have h := readWord?_eq hhead (.cons hs (.cons ht (.cons hu .nil)))
  simpa only [String.intercalate_cons_cons, String.intercalate_singleton, String.append_assoc]
    using h

/-- A name other than that of a word that is no instruction stands for an instruction. -/
theorem word?_of_instruction? {name : String} {operands : List Operand} {i : Instruction}
    (hname : name ≠ "inval") (h : instruction? name operands = some i) :
    word? name operands = some i.encode := by
  unfold word?
  split
  · exact absurd rfl hname
  · rw [h, Option.map_some]

theorem readWord?_register_place {i : Instruction} (x : Register) (place : String)
    (hplace : place ∈ places) (h : instruction? "ld" [.register x, .place place] = some i) :
    readWord? ("ld     " ++ Instruction.registerText x ++ (", " ++ place)) = some i.encode := by
  rw [← String.append_assoc,
    readWord?_two (by decide) (reads_register x) (reads_place hplace)]
  exact word?_of_instruction? (by decide) h

theorem readWord?_place_register {i : Instruction} (head place : String) (x : Register)
    (hhead : head ∈ ["ld     ", "add    "]) (hplace : place ∈ places)
    (h : instruction? (.ofList (withoutBlanks head.toList)) [.place place, .register x] = some i) :
    readWord? (head ++ place ++ ", " ++ Instruction.registerText x) = some i.encode := by
  have hall : ∀ head ∈ ["ld     ", "add    "], head.toList.length = 7 ∧
      String.ofList (withoutBlanks head.toList) ≠ "inval" := by decide
  obtain ⟨hlength, hname⟩ := hall head hhead
  rw [readWord?_two hlength (reads_place hplace) (reads_register x)]
  exact word?_of_instruction? hname h

end Shapes

/-- Every instruction can be read from its mnemonic, case by case of the operands it has. -/
theorem readWord?_mnemonic (i : Instruction) : readWord? i.mnemonic = some i.encode := by
  cases i
  case clear | ret => rfl
  case jump a | call a =>
    refine (readWord?_one (by decide) (reads_bare (by decide) (by omega))).trans ?_
    simp [word?, instruction?, withoutBlanks, List.lookup_cons]
  case skipIfKey x | skipUnlessKey x =>
    refine (readWord?_one (by decide) (reads_register x)).trans ?_
    simp [word?, instruction?, withoutBlanks, List.lookup_cons]
  case skipIfByte x b | skipUnlessByte x b | setByte x b | addByte x b | random x b =>
    have hb : b.toNat ≤ 0xffff := by
      have := b.toNat_lt
      omega
    refine (readWord?_two (by decide) (reads_register x) (reads_number 2 hb)).trans ?_
    simp [word?, instruction?, withoutBlanks, List.lookup_cons]
  case skipIfEqual x y | skipUnlessEqual x y | copy x y | or x y | and x y | xor x y | add x y
      | sub x y | shiftRight x y | subFrom x y | shiftLeft x y =>
    refine (readWord?_two (by decide) (reads_register x) (reads_register y)).trans ?_
    simp [word?, instruction?, withoutBlanks, List.lookup_cons]
  case draw x y n =>
    have hn : n.val ≤ 0xffff := by omega
    have hlast : lastDigit n.val = n := Fin.ext (Nat.mod_eq_of_lt n.isLt)
    -- the mark of the height stands with the comma before it
    have htext :
        "drw    " ++ Instruction.registerText x ++ ", " ++ Instruction.registerText y ++ ", #" ++
            hex 1 n.val =
          "drw    " ++ Instruction.registerText x ++ ", " ++ Instruction.registerText y ++ ", " ++
            ("#" ++ hex 1 n.val) := by
      apply String.toList_inj.mp
      simp
    refine (congrArg readWord? htext).trans ?_
    refine (readWord?_three (by decide) (reads_register x) (reads_register y)
      (reads_number 1 hn)).trans ?_
    simp [word?, instruction?, withoutBlanks, hlast]
  case setIndex a =>
    change readWord? ("ld     " ++ "I" ++ ", " ++ ("$" ++ hex 3 a.toNat)) = _
    refine (readWord?_two (by decide) (reads_place (by decide))
      (reads_marked 3 (by omega))).trans ?_
    simp [word?, instruction?, withoutBlanks]
  case jumpFrom a =>
    change readWord? ("jp     " ++ Instruction.registerText 0 ++ ", " ++ ("$" ++ hex 3 a.toNat)) = _
    refine (readWord?_two (by decide) (reads_register 0) (reads_marked 3 (by omega))).trans ?_
    simp [word?, instruction?, withoutBlanks]
  case getDelay x => exact readWord?_register_place x "DT" (by decide) rfl
  case awaitKey x => exact readWord?_register_place x "K" (by decide) rfl
  case fetch x => exact readWord?_register_place x "[I]" (by decide) rfl
  case setDelay x => exact readWord?_place_register "ld     " "DT" x (by decide) (by decide) rfl
  case setSound x => exact readWord?_place_register "ld     " "ST" x (by decide) (by decide) rfl
  case addIndex x => exact readWord?_place_register "add    " "I" x (by decide) (by decide) rfl
  case pointAtGlyph x => exact readWord?_place_register "ld     " "F" x (by decide) (by decide) rfl
  case decimalDigits x => exact readWord?_place_register "ld     " "B" x (by decide) (by decide) rfl
  case store x => exact readWord?_place_register "ld     " "[I]" x (by decide) (by decide) rfl

theorem readWord?_inval (w : UInt16) : readWord? ("inval  " ++ hex 4 w.toNat) = some w := by
  have hw : w.toNat ≤ 0xffff := Nat.le_of_lt_succ w.toNat_lt
  refine (readWord?_one (by decide) (reads_bare (by decide) hw)).trans ?_
  simp [word?, withoutBlanks]

/-- Every word can be read from its text. -/
theorem readWord?_wordText (p : Palette) (w : UInt16) :
    readWord? (unstyled (Listing.wordText p w)) = some w := by
  rw [Listing.unstyled_wordText]
  cases hw : Instruction.decode w with
  | some i =>
    rw [Listing.wordText_of_some .plain hw, ← Instruction.decode_eq_some_iff.mp hw]
    exact readWord?_mnemonic i
  | none =>
    rw [(Listing.wordText_eq_inval_iff (Or.inl rfl) w).mpr hw]
    exact readWord?_inval w

end Chip8.Assembly

namespace Chip8.Listing
open Chip8.Text

/-- The column of mnemonics in the listing of a program. -/
def mnemonics (p : Palette) (program : List UInt8) : List String :=
  (words program).map (wordText p)

theorem wordText_injective (p : Palette) : Function.Injective (wordText p) := by
  intro v w h
  have hv := Assembly.readWord?_wordText p v
  rw [h, Assembly.readWord?_wordText p w] at hv
  exact (Option.some.inj hv).symm

/-- All whole words of a program are found again. -/
theorem assemble?_mnemonics (p : Palette) (program : List UInt8) :
    Assembly.assemble? (mnemonics p program) =
      some (program.take (2 * (program.length / 2))) := by
  have hread : ∀ ws : List UInt16,
      (ws.map (wordText p)).mapM (fun text => Assembly.readWord? (unstyled text)) = some ws := by
    intro ws
    induction ws with
    | nil => rfl
    | cons w ws ih => simp [Assembly.readWord?_wordText p w, ih]
  rw [Assembly.assemble?, mnemonics, hread, Option.map_some, flatMap_words]

/-- Words that differ have texts that differ, in any palette, and an assembler gets a program of
whole words back from its mnemonics alone. -/
theorem mnemonics_determine_program (p : Palette) :
    (∀ v w : UInt16, wordText p v = wordText p w → v = w) ∧
    (∀ program other : List UInt8, program.length % 2 = 0 → other.length = program.length →
      mnemonics p program = mnemonics p other → program = other) ∧
    ∀ program : List UInt8, program.length % 2 = 0 →
      Assembly.assemble? (mnemonics p program) = some program := by
  have hassemble : ∀ program : List UInt8, program.length % 2 = 0 →
      Assembly.assemble? (mnemonics p program) = some program := by
    intro program h
    have hwhole : 2 * (program.length / 2) = program.length := by omega
    rw [assemble?_mnemonics, hwhole, List.take_length]
  refine ⟨fun v w h => wordText_injective p h, ?_, hassemble⟩
  intro program other heven hlength h
  have hprogram := hassemble program heven
  rw [h, hassemble other (hlength ▸ heven)] at hprogram
  exact (Option.some.inj hprogram).symm

/-- An instruction and a word that is none, in colours. -/
theorem mnemonics_determine_mixed_program :
    let program : List UInt8 := [0xf1, 0x65, 0xff, 0xff]
    mnemonics .coloured program =
        ["\x1b[32mld     v1, [I]\x1b[0m", "\x1b[31;1minval  ffff\x1b[0m"] ∧
      Assembly.assemble? (mnemonics .coloured program) = some program := by
  intro program
  have htexts : mnemonics .coloured program =
      ["\x1b[32mld     v1, [I]\x1b[0m", "\x1b[31;1minval  ffff\x1b[0m"] := by
    decide +kernel
  exact ⟨htexts, (mnemonics_determine_program .coloured).2.2 program (by simp [program])⟩

end Chip8.Listing
