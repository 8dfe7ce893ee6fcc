import Chip8.Proofs.Listing
import Chip8.Proofs.Text.Terminal

/-! Listings with and without colours. Colours add nothing but escape sequences, and both kinds have
the same lines. -/
namespace Chip8
open Chip8.Text

namespace Instruction

theorem printable_registerText (x : Register) : Printable (registerText x).toList := by
  revert x
  decide

theorem printable_byteText (b : UInt8) : Printable (byteText b).toList := by
  rw [byteText, String.toList_append, printable_append]
  exact ⟨by decide, printable_hex 2 b.toNat⟩

theorem printable_addressText (a : Address) : Printable (addressText a).toList :=
  printable_hex 3 a.toNat

theorem printable_dollarText (a : Address) : Printable (dollarText a).toList := by
  rw [dollarText, String.toList_append, printable_append]
  exact ⟨by decide, printable_hex 3 a.toNat⟩

theorem printable_mnemonic (i : Instruction) : Printable i.mnemonic.toList := by
  unfold mnemonic
  cases i
  all_goals
    -- the operands are printable, and what is left are the fixed texts between them
    simp only [String.toList_append, printable_append, printable_registerText, printable_byteText,
      printable_addressText, printable_dollarText, printable_hex, and_true]
    decide

end Instruction

namespace Listing

theorem printable_inval (w : UInt16) : Printable ("inval  " ++ hex 4 w.toNat).toList := by
  rw [String.toList_append, printable_append]
  exact ⟨by decide, printable_hex 4 w.toNat⟩

theorem newline_notMem_wordText (p : Palette) (w : UInt16) : '\n' ∉ (wordText p w).toList := by
  unfold wordText
  split
  · rename_i i _
    exact newline_notMem_paint p.valid i.printable_mnemonic.newline_notMem
  · exact newline_notMem_paint p.invalid (printable_inval w).newline_notMem

theorem unstyledChars_wordText (p : Palette) (w : UInt16) (rest : List Char) :
    unstyledChars ((wordText p w).toList ++ rest) =
      (wordText .plain w).toList ++ unstyledChars rest := by
  unfold wordText
  split
  · rename_i i _
    exact unstyledChars_paint p.valid i.printable_mnemonic.escape_notMem rest
  · exact unstyledChars_paint p.invalid (printable_inval w).escape_notMem rest

/-- Every palette gives a word the same text, but for the colours. -/
theorem unstyled_wordText (p : Palette) (w : UInt16) :
    unstyled (wordText p w) = wordText .plain w := by
  have h := unstyledChars_wordText p w []
  rw [List.append_nil, unstyledChars_nil, List.append_nil] at h
  rw [unstyled, h, String.ofList_toList]

def rawText (p : Palette) (w : UInt16) : String :=
  p.raw.elim (hex 4 w.toNat) fun c => c.ink (hex 4 w.toNat)

theorem newline_notMem_rawText (p : Palette) (w : UInt16) : '\n' ∉ (rawText p w).toList := by
  have hhex : '\n' ∉ (hex 4 w.toNat).toList := (printable_hex 4 w.toNat).newline_notMem
  unfold rawText
  cases p.raw with
  | none => exact hhex
  | some c => exact newline_notMem_ink c hhex

theorem unstyledChars_rawText (p : Palette) (w : UInt16) (rest : List Char) :
    unstyledChars ((rawText p w).toList ++ rest) =
      (hex 4 w.toNat).toList ++ unstyledChars rest := by
  have hhex : '\x1b' ∉ (hex 4 w.toNat).toList := (printable_hex 4 w.toNat).escape_notMem
  unfold rawText
  cases p.raw with
  | none => exact unstyledChars_append hhex rest
  | some c => exact unstyledChars_ink c hhex rest

def row (p : Palette) (address : Nat) (w : UInt16) : String :=
  hex 3 address ++ ": " ++ wordText p w ++ " " ++ rawText p w

theorem line_eq (p : Palette) (address : Nat) (w : UInt16) :
    line p address w = row p address w ++ "\n" := rfl

theorem newline_notMem_row (p : Palette) (address : Nat) (w : UInt16) :
    '\n' ∉ (row p address w).toList := by
  unfold row
  simp only [String.toList_append, List.mem_append, not_or]
  exact ⟨⟨⟨⟨(printable_hex 3 address).newline_notMem, by decide⟩, newline_notMem_wordText p w⟩,
    by decide⟩, newline_notMem_rawText p w⟩

/-- Without colours, every line is the one of the plain listing. -/
theorem unstyledChars_line (p : Palette) (address : Nat) (w : UInt16) (rest : List Char) :
    unstyledChars ((line p address w).toList ++ rest) =
      (line .plain address w).toList ++ unstyledChars rest := by
  have haddress : '\x1b' ∉ (hex 3 address).toList := (printable_hex 3 address).escape_notMem
  have hcolon : '\x1b' ∉ ": ".toList := by decide
  have hblank : '\x1b' ∉ " ".toList := by decide
  have hbreak : '\x1b' ∉ "\n".toList := by decide
  have hraw : rawText .plain w = hex 4 w.toNat := rfl
  simp only [line_eq, row, String.toList_append, List.append_assoc, hraw]
  rw [unstyledChars_append haddress, unstyledChars_append hcolon, unstyledChars_wordText,
    unstyledChars_append hblank, unstyledChars_rawText, unstyledChars_append hbreak]

theorem unstyled_join_lines (p : Palette) (address : Nat) (bytes : List UInt8) :
    unstyled (String.join (lines p address bytes)) = String.join (lines .plain address bytes) := by
  apply String.toList_inj.mp
  rw [unstyled, String.toList_ofList, String.toList_join, String.toList_join]
  fun_induction words bytes generalizing address with
  | case1 => exact unstyledChars_nil
  | case2 b => exact unstyledChars_nil
  | case3 high low rest ih =>
    rw [lines, lines, List.flatMap_cons, List.flatMap_cons, unstyledChars_line, ih]

theorem hasLines_join_lines (p : Palette) (address : Nat) (bytes : List UInt8) :
    HasLines (String.join (lines p address bytes))
      ((words bytes).mapIdx fun k w => (row p (address + 2 * k) w).toList) := by
  have hjoin : lines p address bytes =
      ((words bytes).mapIdx fun k w => (row p (address + 2 * k) w).toList).map
        fun l => String.ofList l ++ "\n" := by
    rw [lines_eq_mapIdx]
    apply List.ext_getElem?
    intro k
    simp only [List.getElem?_map, List.getElem?_mapIdx, Option.map_map, Function.comp_def,
      String.ofList_toList, line_eq]
  rw [hjoin]
  apply hasLines_join
  intro l hl
  obtain ⟨k, -, rfl⟩ := List.mem_mapIdx.mp hl
  exact newline_notMem_row p _ _

end Listing

namespace CommandLine.Disassembler

theorem out_exit (s : Settings) (contents : List UInt8) :
    (s.exit .ready (.ok contents)).out = String.join (lines s contents) := by
  simp [Settings.exit, listing]

/-- The coloured listing of a file without its escape sequences is the plain one, with a line for
each whole word from the offset on. -/
theorem listing_same_without_colours (s : Settings) (contents : List UInt8) :
    let output := fun plain : Bool => ({ s with plain := plain }.exit .ready (.ok contents)).out
    let first := min s.offset contents.length
    let shown := Listing.words (contents.drop first)
    unstyled (output false) = output true ∧
    shown.length = (contents.length - first) / 2 ∧
    (∀ plain, HasLines (output plain) (shown.mapIdx fun k w =>
      (Listing.row (if plain then .plain else .coloured)
        (s.loadAddress.toNat + first + 2 * k) w).toList)) ∧
    (∀ p address w, ∃ digits text, IsHex 3 address digits ∧
      (Listing.row p address w).toList = digits ++ ": ".toList ++ text) ∧
    (contents.length ≤ s.offset → ∀ plain, output plain = "") := by
  intro output first shown
  have hlength : shown.length = (contents.length - first) / 2 := by
    rw [Listing.length_words, List.length_drop]
  have houtput : ∀ plain, output plain =
      String.join (Listing.lines (if plain then .plain else .coloured)
        (s.loadAddress.toNat + first) (contents.drop first)) :=
    fun plain => out_exit { s with plain := plain } contents
  refine ⟨?_, hlength, ?_, ?_, ?_⟩
  · rw [houtput, houtput]
    exact Listing.unstyled_join_lines _ _ _
  · intro plain
    rw [houtput]
    exact Listing.hasLines_join_lines _ _ _
  · intro p address w
    refine ⟨(hex 3 address).toList, (Listing.wordText p w ++ " " ++ Listing.rawText p w).toList,
      isHex_hex 3 address, ?_⟩
    simp only [Listing.row, String.toList_append, List.append_assoc]
  · intro h plain
    have hend : contents.drop first = [] := by
      rw [List.drop_eq_nil_iff]
      exact Nat.le_min.mpr ⟨h, Nat.le_refl _⟩
    rw [houtput, hend]
    rfl

end CommandLine.Disassembler

end Chip8
