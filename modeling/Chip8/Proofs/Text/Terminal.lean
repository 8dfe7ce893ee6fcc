import Chip8.Proofs.Text.Numeral
import Chip8.Text.Style

/-! Text as a terminal takes it: in lines, and with escape sequences that are not shown. -/
namespace Chip8.Text

/-- The text is made of these lines, each ended by a line break. -/
def HasLines (text : String) (lines : List (List Char)) : Prop :=
  text.toList.splitOn '\n' = lines ++ [[]]

theorem hasLines_join {lines : List (List Char)} (h : ∀ l ∈ lines, '\n' ∉ l) :
    HasLines (String.join (lines.map fun l => String.ofList l ++ "\n")) lines := by
  unfold HasLines
  rw [String.toList_join, List.splitOn_eq_splitOnP]
  induction lines with
  | nil => rfl
  | cons l rest ih =>
    have hl : ∀ c ∈ l, (c == '\n') = false := by
      intro c hc
      rw [beq_eq_false_iff_ne]
      rintro rfl
      exact h l List.mem_cons_self hc
    have hbreak : (String.ofList l ++ "\n").toList = l ++ ['\n'] := by simp
    rw [List.map_cons, List.flatMap_cons, hbreak, List.append_assoc, List.singleton_append,
      List.splitOnP_append_cons_of_forall_mem hl '\n' rfl, List.cons_append,
      ih fun k hk => h k (List.mem_cons_of_mem l hk)]

theorem HasLines.unique {text : String} {lines lines' : List (List Char)}
    (h : HasLines text lines) (h' : HasLines text lines') : lines = lines' :=
  List.append_cancel_right (h.symm.trans h')

/-- What may stand in an escape sequence between its two first characters and its last. -/
def isParameter (c : Char) : Bool := c.isDigit || c == ';'

/-- What comes after an escape sequence, if the text starts with a whole one. -/
def afterEscape? : List Char → Option (List Char)
  | '\x1b' :: '[' :: rest =>
    match rest.dropWhile isParameter with
    | 'm' :: tail => some tail
    | _ => none
  | _ => none

theorem length_lt_of_afterEscape? {cs tail : List Char} (h : afterEscape? cs = some tail) :
    tail.length < cs.length := by
  unfold afterEscape? at h
  split at h
  · rename_i rest
    split at h
    · rename_i found hdrop
      cases h
      have hle : (rest.dropWhile isParameter).length ≤ rest.length :=
        (List.dropWhile_suffix isParameter).length_le
      rw [hdrop, List.length_cons] at hle
      simp only [List.length_cons]
      omega
    · cases h
  · cases h

/-- The characters that are left when all escape sequences are taken out. -/
def unstyledChars : List Char → List Char
  | [] => []
  | c :: rest =>
    match _h : afterEscape? (c :: rest) with
    | some tail => unstyledChars tail
    | none => c :: unstyledChars rest
termination_by cs => cs.length
decreasing_by
  · exact length_lt_of_afterEscape? _h
  · simp

theorem unstyledChars_nil : unstyledChars [] = [] := by
  rw [unstyledChars]

def unstyled (text : String) : String := String.ofList (unstyledChars text.toList)

/-- Nothing but letters, digits, signs and blanks. -/
def Printable (cs : List Char) : Prop := ∀ c ∈ cs, ' ' ≤ c ∧ c ≤ '~'

instance (cs : List Char) : Decidable (Printable cs) := List.decidableBAll _ cs

variable {cs : List Char}

theorem printable_append {front back : List Char} :
    Printable (front ++ back) ↔ Printable front ∧ Printable back :=
  List.forall_mem_append

theorem Printable.newline_notMem (h : Printable cs) : '\n' ∉ cs :=
  fun hc => absurd (h '\n' hc).1 (by decide)

theorem Printable.escape_notMem (h : Printable cs) : '\x1b' ∉ cs :=
  fun hc => absurd (h '\x1b' hc).1 (by decide)

theorem printable_hex (width n : Nat) : Printable (hex width n).toList := by
  have hdigits : Printable hexDigits := by decide
  intro c hc
  exact hdigits c ((isHex_hex width n).digits c hc)

theorem isParameter_of_mem {codes : List Nat} {c : Char}
    (h : c ∈ (";".intercalate (codes.map Nat.repr)).toList) : isParameter c = true := by
  have hcode : ∀ n : Nat, c ∈ n.repr.toList → isParameter c = true := by
    intro n hc
    rw [Nat.toList_repr] at hc
    have hdigit := Nat.isDigit_of_mem_toDigits (by decide) (by decide) hc
    rw [isParameter, hdigit, Bool.true_or]
  induction codes with
  | nil => simp at h
  | cons n codes ih =>
    cases codes with
    | nil =>
      refine hcode n ?_
      simpa using h
    | cons k codes =>
      rw [List.map_cons, List.map_cons, String.intercalate_cons_cons] at h
      simp only [String.toList_append, List.mem_append] at h
      rcases h with (hn | hsep) | hrest
      · exact hcode n hn
      · have hc : c = ';' := by simpa using hsep
        rw [hc]
        rfl
      · exact ih hrest

theorem toList_escape (codes : List Nat) :
    (escape codes).toList =
      '\x1b' :: '[' :: ((";".intercalate (codes.map Nat.repr)).toList ++ ['m']) := by
  simp [escape]

theorem newline_notMem_escape (codes : List Nat) : '\n' ∉ (escape codes).toList := by
  rw [toList_escape]
  simp only [List.mem_cons, List.mem_append, List.not_mem_nil, or_false, not_or]
  refine ⟨by decide, by decide, ?_, by decide⟩
  intro h
  exact absurd (isParameter_of_mem h) (by decide)

theorem newline_notMem_ink (c : Colour) {text : String} (h : '\n' ∉ text.toList) :
    '\n' ∉ (c.ink text).toList := by
  unfold Colour.ink
  simp only [String.toList_append, List.mem_append, not_or]
  exact ⟨⟨newline_notMem_escape _, h⟩, newline_notMem_escape _⟩

theorem newline_notMem_paint (s : Style) {text : String} (h : '\n' ∉ text.toList) :
    '\n' ∉ (s.paint text).toList := by
  unfold Style.paint
  split
  · exact h
  · simp only [String.toList_append, List.mem_append, not_or]
    exact ⟨⟨newline_notMem_escape _, h⟩, newline_notMem_escape _⟩

theorem unstyledChars_escape_append (codes : List Nat) (rest : List Char) :
    unstyledChars ((escape codes).toList ++ rest) = unstyledChars rest := by
  have hafter : afterEscape? ((escape codes).toList ++ rest) = some rest := by
    rw [toList_escape]
    simp only [List.cons_append, List.append_assoc, List.nil_append, afterEscape?]
    rw [List.dropWhile_append_of_pos fun c hc => isParameter_of_mem hc]
    rfl
  rw [toList_escape, List.cons_append] at hafter ⊢
  rw [unstyledChars]
  split
  · rename_i tail htail
    rw [hafter] at htail
    cases htail
    rfl
  · rename_i hnone
    rw [hafter] at hnone
    cases hnone

theorem unstyledChars_append (h : '\x1b' ∉ cs) (rest : List Char) :
    unstyledChars (cs ++ rest) = cs ++ unstyledChars rest := by
  induction cs with
  | nil => rfl
  | cons c cs ih =>
    rw [List.mem_cons, not_or] at h
    have hafter : afterEscape? (c :: (cs ++ rest)) = none := by
      unfold afterEscape?
      split
      · rename_i heq
        exact absurd (List.cons.inj heq).1.symm h.1
      · rfl
    rw [List.cons_append, unstyledChars]
    split
    · rename_i tail htail
      rw [hafter] at htail
      cases htail
    · rw [ih h.2, List.cons_append]

theorem unstyledChars_paint (s : Style) {text : String} (h : '\x1b' ∉ text.toList)
    (rest : List Char) :
    unstyledChars ((s.paint text).toList ++ rest) = text.toList ++ unstyledChars rest := by
  unfold Style.paint
  split
  · exact unstyledChars_append h rest
  · simp only [String.toList_append, List.append_assoc]
    rw [unstyledChars_escape_append, unstyledChars_append h, unstyledChars_escape_append]

theorem unstyledChars_ink (c : Colour) {text : String} (h : '\x1b' ∉ text.toList)
    (rest : List Char) :
    unstyledChars ((c.ink text).toList ++ rest) = text.toList ++ unstyledChars rest := by
  unfold Colour.ink
  simp only [String.toList_append, List.append_assoc]
  rw [unstyledChars_escape_append, unstyledChars_append h, unstyledChars_escape_append]

end Chip8.Text
