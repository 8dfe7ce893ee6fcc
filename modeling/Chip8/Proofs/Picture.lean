import Chip8.Proofs.Screen
import Chip8.Proofs.Text.Terminal
import Chip8.Screen.Braille
import Mathlib.Tactic.IntervalCases

/-! A screen as text. The blocks of one text and the dots of the other are the lit pixels, so each
of the texts determines the screen. -/
namespace Chip8

namespace Screen

open Chip8.Text

variable {s t : Screen}

theorem ext_get (h : ∀ x < 64, ∀ y < 32, s.get x y = t.get x y) : s = t := by
  apply ext_lit
  intro p
  have hp := h p.column.val p.column.isLt p.row.val p.row.isLt
  rwa [get_eq_lit s p.column.isLt p.row.isLt, get_eq_lit t p.column.isLt p.row.isLt] at hp

/-- Numbers row by row are numbers in a row. -/
theorem flatMap_range {α : Type} (f : Nat → Nat → α) {w : Nat} (hw : 0 < w) (h : Nat) :
    ((List.range h).flatMap fun y => (List.range w).map fun x => f x y) =
      (List.range (w * h)).map fun i => f (i % w) (i / w) := by
  induction h with
  | zero => rfl
  | succ h ih =>
    have hrow : ((List.range w).map fun x => f x h) =
        (List.range w).map fun x => f ((w * h + x) % w) ((w * h + x) / w) := by
      apply List.map_congr_left
      intro x hx
      have hlt := List.mem_range.mp hx
      rw [Nat.mul_add_mod, Nat.mod_eq_of_lt hlt, Nat.mul_add_div hw, Nat.div_eq_of_lt hlt,
        Nat.add_zero]
    rw [List.range_succ, List.flatMap_append, ih, List.flatMap_singleton, hrow, Nat.mul_succ,
      List.range_add, List.map_append, List.map_map]
    rfl

/-- All pixels in a row: row by row, and each row from left to right. -/
theorem toList_eq (s : Screen) :
    s.toList = (List.range 2048).map fun i => s.get (i % 64) (i / 64) :=
  flatMap_range s.get (by decide) 32

theorem length_bytes (s : Screen) : s.bytes.length = 256 := Vector.length_toList

theorem getElem_bytes (s : Screen) {k : Nat} (h : k < s.bytes.length) :
    s.bytes[k] = s.cells.get ⟨k, by rwa [length_bytes] at h⟩ := by
  simp only [bytes, Vector.getElem_toList, get_eq_getElem]

theorem testBit_getD_bytes (s : Screen) {x y : Nat} (hx : x < 64) (hy : y < 32) :
    (s.bytes.getD (8 * y + x / 8) 0).toNat.testBit (7 - x % 8) = s.get x y := by
  rw [List.getD_eq_getElem _ _ (by rw [length_bytes]; omega), getElem_bytes, get_eq_lit s hx hy,
    lit_eq_testBit]
  rfl

/-- A byte shows its bits, the most significant first. -/
theorem toList_byteText (b : UInt8) :
    (byteText b).toList = (List.range 8).map fun j => if b.toNat.testBit (7 - j) then '█' else ' ' := by
  have hbinary : ∀ n < 256, (Nat.toDigits 2 n).leftpad 8 '0' =
      (List.range 8).map fun j => if n.testBit (7 - j) then '1' else '0' := by decide +kernel
  have hblock : ∀ lit : Bool,
      (if (if (if lit then '1' else '0') = '0' then ' ' else if lit then '1' else '0') = '1'
        then '█' else if (if lit then '1' else '0') = '0' then ' ' else if lit then '1' else '0') =
      if lit then '█' else ' ' := by decide
  simp only [byteText, replaceChar, binary, String.toList_ofList, hbinary _ b.toNat_lt, List.map_map]
  apply List.map_congr_left
  intro j _
  exact hblock _

theorem rowsOf_eq (count : Nat) (bytes : List UInt8) :
    rowsOf count bytes = (List.range count).map fun y => (bytes.drop (8 * y)).take 8 := by
  induction count generalizing bytes with
  | zero => rfl
  | succ count ih =>
    rw [rowsOf, ih, List.range_succ_eq_map, List.map_cons, List.map_map]
    simp only [Function.comp_def, List.drop_drop, Nat.mul_succ, Nat.add_comm 8, Nat.mul_zero,
      List.drop_zero]

def rowChars (s : Screen) (y : Nat) : List Char :=
  [Nat.digitChar (y / 10), Nat.digitChar (y % 10), '|'] ++
    ((List.range 64).map fun x => if s.get x y then '█' else ' ') ++ ['|']

theorem newline_notMem_rowChars (s : Screen) {y : Nat} (hy : y < 32) : '\n' ∉ s.rowChars y := by
  have hdigit : ∀ d < 10, '\n' ≠ Nat.digitChar d := by decide
  have hblock : ∀ lit : Bool, '\n' ≠ if lit then '█' else ' ' := by decide
  simp only [rowChars, List.mem_append, List.mem_cons, List.mem_map, List.not_mem_nil, or_false,
    not_or, not_exists, not_and]
  refine ⟨⟨⟨hdigit _ (by omega), hdigit _ (by omega), by decide⟩, ?_⟩, by decide⟩
  intro x _ h
  exact hblock _ h.symm

theorem take_drop_bytes (s : Screen) {y : Nat} (hy : y < 32) :
    (s.bytes.drop (8 * y)).take 8 = (List.range 8).map fun k => s.bytes.getD (8 * y + k) 0 := by
  apply List.ext_getElem
  · rw [List.length_take, List.length_drop, length_bytes, List.length_map, List.length_range]
    omega
  · intro k _ hk
    have hlt : 8 * y + k < s.bytes.length := by
      rw [List.length_map, List.length_range] at hk
      rw [length_bytes]
      omega
    simp only [List.getElem_take, List.getElem_drop, List.getElem_map, List.getElem_range,
      List.getD_eq_getElem _ _ hlt]

/-- The blocks of the eight bytes of a row are its 64 pixels. -/
theorem flatMap_byteText (s : Screen) {y : Nat} (hy : y < 32) :
    ((s.bytes.drop (8 * y)).take 8).flatMap (fun b => (byteText b).toList) =
      (List.range 64).map fun x => if s.get x y then '█' else ' ' := by
  simp only [take_drop_bytes s hy, List.flatMap_map, toList_byteText]
  rw [flatMap_range (fun j k => if (s.bytes.getD (8 * y + k) 0).toNat.testBit (7 - j)
    then '█' else ' ') (by decide) 8]
  apply List.map_congr_left
  intro x hx
  have hlt : x < 64 := List.mem_range.mp hx
  rw [testBit_getD_bytes s hlt hy]

theorem rowText_eq (s : Screen) {y : Nat} (hy : y < 32) :
    rowText y ((s.bytes.drop (8 * y)).take 8) = String.ofList (s.rowChars y) ++ "\n" := by
  have hnumber : ∀ n < 32, (Nat.toDigits 10 n).leftpad 2 '0' =
      [Nat.digitChar (n / 10), Nat.digitChar (n % 10)] := by decide
  have hdecimal : decimal '0' 2 y =
      String.ofList [Nat.digitChar (y / 10), Nat.digitChar (y % 10)] :=
    congrArg String.ofList (hnumber y hy)
  have hblocks : (String.join (((s.bytes.drop (8 * y)).take 8).map byteText)).toList =
      (List.range 64).map fun x => if s.get x y then '█' else ' ' := by
    rw [String.toList_join, List.flatMap_map, flatMap_byteText s hy]
  rw [rowText, hdecimal]
  apply String.toList_inj.mp
  simp only [String.toList_append, hblocks, rowChars, String.toList_ofList]
  simp

theorem hasLines_text (s : Screen) : HasLines s.text ((List.range 32).map s.rowChars) := by
  have hrows : (rowsOf (s.bytes.length / 8) s.bytes).mapIdx rowText =
      ((List.range 32).map s.rowChars).map fun l => String.ofList l ++ "\n" := by
    rw [length_bytes, rowsOf_eq, List.map_map]
    apply List.ext_getElem
    · simp
    · intro y _ hy
      rw [List.length_map, List.length_range] at hy
      simp only [List.getElem_mapIdx, List.getElem_map, List.getElem_range, Function.comp_apply]
      exact rowText_eq s hy
  rw [text, hrows]
  apply hasLines_join
  intro l hl
  obtain ⟨y, hy, rfl⟩ := List.mem_map.mp hl
  exact newline_notMem_rowChars s (List.mem_range.mp hy)

theorem text_inj (h : s.text = t.text) : s = t := by
  have ht := hasLines_text t
  rw [← h] at ht
  have hlines := (hasLines_text s).unique ht
  have hblock : ∀ a b : Bool, (if a then '█' else ' ') = (if b then '█' else ' ') → a = b := by
    decide
  apply ext_get
  intro x hx y hy
  have hrow : s.rowChars y = t.rowChars y :=
    List.map_inj_left.mp hlines y (List.mem_range.mpr hy)
  have hcells := List.append_cancel_left (List.append_cancel_right hrow)
  exact hblock _ _ (List.map_inj_left.mp hcells x (List.mem_range.mpr hx))

end Screen

/-- The bit of a braille character for the dot in a column and a row. The upper three rows are
counted column by column, and the lowest row follows. -/
def dotBit (dx dy : Nat) : Nat := if dy < 3 then 3 * dx + dy else 6 + dx

/-- The character shows these dots, two columns wide and four rows high: a space if there are none,
and otherwise the braille character with just these dots. -/
structure ShowsDots (c : Char) (dot : Nat → Nat → Bool) : Prop where
  space : (∀ dx < 2, ∀ dy < 4, dot dx dy = false) → c = ' '
  braille : (∃ dx < 2, ∃ dy < 4, dot dx dy = true) → c.toNat / 256 = 0x28 ∧
    ∀ dx < 2, ∀ dy < 4, c.toNat.testBit (dotBit dx dy) = dot dx dy

namespace ShowsDots

variable {c : Char} {dot : Nat → Nat → Bool}

theorem dark_or_lit (dot : Nat → Nat → Bool) :
    (∀ dx < 2, ∀ dy < 4, dot dx dy = false) ∨ ∃ dx < 2, ∃ dy < 4, dot dx dy = true := by
  by_cases hlit : ∃ dx < 2, ∃ dy < 4, dot dx dy = true
  · exact Or.inr hlit
  · push Not at hlit
    simp only [Bool.not_eq_true] at hlit
    exact Or.inl hlit

/-- The dots can be told from the character. -/
theorem dot_eq (h : ShowsDots c dot) {dx dy : Nat} (hx : dx < 2) (hy : dy < 4) :
    dot dx dy = (c.toNat / 256 == 0x28 && c.toNat.testBit (dotBit dx dy)) := by
  rcases dark_or_lit dot with hdark | hlit
  · rw [h.space hdark, hdark dx hx dy hy]
    rfl
  · obtain ⟨hblock, hbits⟩ := h.braille hlit
    rw [hblock, hbits dx hx dy hy]
    rfl

theorem ne_newline (h : ShowsDots c dot) : c ≠ '\n' := by
  rintro rfl
  rcases dark_or_lit dot with hdark | hlit
  · exact absurd (h.space hdark) (by decide)
  · exact absurd (h.braille hlit).1 (by decide)

theorem congr {dot' : Nat → Nat → Bool} (h : ShowsDots c dot)
    (heq : ∀ dx < 2, ∀ dy < 4, dot dx dy = dot' dx dy) : ShowsDots c dot' := by
  constructor
  · intro hdark
    exact h.space fun dx hx dy hy => (heq dx hx dy hy).trans (hdark dx hx dy hy)
  · rintro ⟨dx, hx, dy, hy, hlit⟩
    obtain ⟨hblock, hbits⟩ := h.braille ⟨dx, hx, dy, hy, (heq dx hx dy hy).trans hlit⟩
    exact ⟨hblock, fun dx hx dy hy => (hbits dx hx dy hy).trans (heq dx hx dy hy)⟩

end ShowsDots

/-- The canvas shows its dots where they were set, in lines of characters that take two columns
and four rows of dots each. There is one character and one line more than whole ones. -/
def Canvas.PlacesDots (canvas : Canvas) (width height : Nat) : Prop :=
  ∀ dots : List (Nat × Nat), (∀ d ∈ dots, d.1 < width ∧ d.2 < height) →
    ∃ cells : Nat → Nat → Char,
      canvas.frame (dots.foldl (fun c d => canvas.set c d.1 d.2) (canvas.new width height)) =
        "\n".intercalate ((List.range (height / 4 + 1)).map fun cy =>
          String.ofList ((List.range (width / 2 + 1)).map fun cx => cells cx cy)) ∧
      ∀ cx ≤ width / 2, ∀ cy ≤ height / 4, ShowsDots (cells cx cy) fun dx dy =>
        dots.contains (2 * cx + dx, 4 * cy + dy)

namespace Screen

open Chip8.Text

variable {s t : Screen}

theorem mem_litIndices (s : Screen) {k : Nat} :
    k ∈ s.litIndices ↔ k < 2048 ∧ s.get (k % 64) (k / 64) = true := by
  have hpair : k ∈ s.litIndices ↔ (true, k) ∈ s.toList.zipIdx := by
    simp [litIndices]
  rw [hpair, List.mem_zipIdx_iff_getElem?, toList_eq, List.getElem?_map]
  by_cases hk : k < 2048 <;> simp [hk]

def litDots (s : Screen) : List (Nat × Nat) := s.litIndices.map fun k => (k % 64, k / 64)

theorem lt_of_get {x y : Nat} (h : s.get x y = true) : x < 64 ∧ y < 32 := by
  unfold get at h
  split at h
  · assumption
  · cases h

theorem mem_litDots (s : Screen) {x y : Nat} : (x, y) ∈ s.litDots ↔ s.get x y = true := by
  rw [litDots, List.mem_map]
  constructor
  · rintro ⟨k, hk, heq⟩
    obtain ⟨rfl, rfl⟩ := Prod.mk.inj heq
    exact (s.mem_litIndices.mp hk).2
  · intro h
    obtain ⟨hx, hy⟩ := lt_of_get h
    have hmod : (64 * y + x) % 64 = x := by omega
    have hdiv : (64 * y + x) / 64 = y := by omega
    refine ⟨64 * y + x, s.mem_litIndices.mpr ⟨by omega, ?_⟩, by rw [hmod, hdiv]⟩
    rwa [hmod, hdiv]

theorem lt_of_mem_litDots {d : Nat × Nat} (h : d ∈ s.litDots) : d.1 < 64 ∧ d.2 < 32 :=
  lt_of_get (s.mem_litDots.mp h)

theorem picture_eq (canvas : Canvas) (s : Screen) :
    s.picture canvas = canvas.frame
      (s.litDots.foldl (fun c d => canvas.set c d.1 d.2) (canvas.new 64 32)) ++ "\n" := by
  rw [litDots, List.foldl_map]
  rfl

/-- Lines with line breaks between them, and one after the last. -/
theorem intercalate_newline {texts : List String} (h : texts ≠ []) :
    "\n".intercalate texts ++ "\n" = String.join (texts.map fun t => t ++ "\n") := by
  induction texts with
  | nil => exact absurd rfl h
  | cons t rest ih =>
    cases rest with
    | nil => simp
    | cons u rest =>
      rw [String.intercalate_cons_cons, String.append_assoc, ih (List.cons_ne_nil u rest)]
      simp only [List.map_cons, String.join_cons]

/-- The picture has nine lines of 33 characters, and each character shows the lit pixels among the
eight it stands for. -/
theorem exists_cells_of_picture {canvas : Canvas} (h : canvas.PlacesDots 64 32) (s : Screen) :
    ∃ cells : Nat → Nat → Char,
      HasLines (s.picture canvas)
        ((List.range 9).map fun cy => (List.range 33).map fun cx => cells cx cy) ∧
      ∀ cx < 33, ∀ cy < 9, ShowsDots (cells cx cy) fun dx dy =>
        s.get (2 * cx + dx) (4 * cy + dy) := by
  obtain ⟨cells, hframe, hcells⟩ := h s.litDots fun d hd => lt_of_mem_litDots hd
  have hshows : ∀ cx < 33, ∀ cy < 9, ShowsDots (cells cx cy) fun dx dy =>
      s.get (2 * cx + dx) (4 * cy + dy) := by
    intro cx hx cy hy
    refine (hcells cx (Nat.le_of_lt_succ hx) cy (Nat.le_of_lt_succ hy)).congr ?_
    intro dx _ dy _
    rw [Bool.eq_iff_iff, List.contains_iff_mem, mem_litDots]
  refine ⟨cells, ?_, hshows⟩
  have hpicture : s.picture canvas = String.join
      (((List.range 9).map fun cy => (List.range 33).map fun cx => cells cx cy).map
        fun l => String.ofList l ++ "\n") := by
    have hne : (List.range 9).map (fun cy =>
        String.ofList ((List.range 33).map fun cx => cells cx cy)) ≠ [] := by simp
    have hlines := intercalate_newline hne
    rw [List.map_map] at hlines ⊢
    rw [picture_eq, hframe]
    exact hlines
  rw [hpicture]
  apply hasLines_join
  intro l hl hbreak
  obtain ⟨cy, hy, rfl⟩ := List.mem_map.mp hl
  obtain ⟨cx, hx, hc⟩ := List.mem_map.mp hbreak
  exact (hshows cx (List.mem_range.mp hx) cy (List.mem_range.mp hy)).ne_newline hc

theorem picture_inj {canvas : Canvas} (hc : canvas.PlacesDots 64 32)
    (h : s.picture canvas = t.picture canvas) : s = t := by
  obtain ⟨cells, hlines, hshows⟩ := exists_cells_of_picture hc s
  obtain ⟨cells', hlines', hshows'⟩ := exists_cells_of_picture hc t
  rw [← h] at hlines'
  have heq := hlines.unique hlines'
  apply ext_get
  intro x hx y hy
  have hline := List.map_inj_left.mp heq (y / 4) (List.mem_range.mpr (by omega))
  have hchar : cells (x / 2) (y / 4) = cells' (x / 2) (y / 4) :=
    List.map_inj_left.mp hline (x / 2) (List.mem_range.mpr (by omega))
  have hs := (hshows (x / 2) (by omega) (y / 4) (by omega)).dot_eq
    (Nat.mod_lt x (by decide)) (Nat.mod_lt y (by decide))
  have ht := (hshows' (x / 2) (by omega) (y / 4) (by omega)).dot_eq
    (Nat.mod_lt x (by decide)) (Nat.mod_lt y (by decide))
  rw [hchar, ← ht] at hs
  simpa only [Nat.div_add_mod] using hs

end Screen

namespace Braille

variable (b : Braille) (cx cy : Nat)

def cellDots (dx dy : Nat) : Bool := b.dots.contains (2 * cx + dx, 4 * cy + dy)

theorem cellValue_eq :
    let dot := b.cellDots cx cy
    b.cellValue cx cy =
      (dot 0 0).toNat + (8 * (dot 1 0).toNat + (2 * (dot 0 1).toNat + (16 * (dot 1 1).toNat +
        (4 * (dot 0 2).toNat + (32 * (dot 1 2).toNat + (64 * (dot 0 3).toNat +
          128 * (dot 1 3).toNat)))))) := by
  have hterm : ∀ (lit : Bool) (value n : Nat),
      (if lit then value + n else n) = value * lit.toNat + n := by
    intro lit value n
    cases lit <;> simp
  simp only [cellValue, dotValues, List.foldr_cons, List.foldr_nil, hterm, cellDots, Nat.one_mul,
    Nat.add_zero]

/-- The value of a character has a bit for each of its dots, and no others. -/
theorem cellValue_spec :
    b.cellValue cx cy < 256 ∧ ∀ dx < 2, ∀ dy < 4,
      b.cellValue cx cy / 2 ^ dotBit dx dy % 2 = (b.cellDots cx cy dx dy).toNat := by
  have hle : ∀ dx dy, (b.cellDots cx cy dx dy).toNat ≤ 1 := fun dx dy => Bool.toNat_le _
  have h₀₀ := hle 0 0
  have h₁₀ := hle 1 0
  have h₀₁ := hle 0 1
  have h₁₁ := hle 1 1
  have h₀₂ := hle 0 2
  have h₁₂ := hle 1 2
  have h₀₃ := hle 0 3
  have h₁₃ := hle 1 3
  rw [cellValue_eq]
  refine ⟨by omega, ?_⟩
  intro dx hx dy hy
  interval_cases dx
  · interval_cases dy <;> simp only [dotBit, Nat.reduceLT, if_true, if_false] <;> omega
  · interval_cases dy <;> simp only [dotBit, Nat.reduceLT, if_true, if_false] <;> omega

theorem toNat_ofNat_braille {n : Nat} (h : n < 256) :
    (Char.ofNat (0x2800 + n)).toNat = 0x2800 + n := by
  have hvalid : (0x2800 + n).isValidChar := Or.inl (by omega)
  have hchar : Char.ofNat (0x2800 + n) = Char.ofNatAux (0x2800 + n) hvalid := dif_pos hvalid
  rw [hchar]
  rfl

theorem showsDots_cellChar : ShowsDots (b.cellChar cx cy) (b.cellDots cx cy) := by
  obtain ⟨hlt, hbits⟩ := cellValue_spec b cx cy
  constructor
  · intro hdark
    have hzero : b.cellValue cx cy = 0 := by
      rw [cellValue_eq]
      simp [hdark]
    rw [cellChar, if_pos hzero]
  · rintro ⟨dx, hx, dy, hy, hlit⟩
    have hne : b.cellValue cx cy ≠ 0 := by
      intro hzero
      have hbit := hbits dx hx dy hy
      rw [hzero, hlit, Nat.zero_div] at hbit
      cases hbit
    have hchar : (b.cellChar cx cy).toNat = 0x2800 + b.cellValue cx cy := by
      rw [cellChar, if_neg hne, toNat_ofNat_braille hlt]
    rw [hchar]
    refine ⟨by omega, ?_⟩
    intro dx hx dy hy
    have hinj : ∀ a b : Bool, a.toNat = b.toNat → a = b := by decide
    apply hinj
    -- the bits of `0x2800` lie above those of the dots
    have hhigh : ∀ k < 8, (0x2800 + b.cellValue cx cy) / 2 ^ k % 2 =
        b.cellValue cx cy / 2 ^ k % 2 := by
      intro k hk
      interval_cases k <;> omega
    have hk : dotBit dx dy < 8 := by
      unfold dotBit
      split <;> omega
    rw [Nat.toNat_testBit, hhigh _ hk, hbits dx hx dy hy]

theorem foldl_set (dots : List (Nat × Nat)) :
    dots.foldl (fun c d => c.set d.1 d.2) b = { b with dots := dots.reverse ++ b.dots } := by
  induction dots generalizing b with
  | nil => rfl
  | cons d rest ih =>
    rw [List.foldl_cons, ih, List.reverse_cons, List.append_assoc]
    rfl

theorem placesDots_canvas (width height : Nat) : canvas.PlacesDots width height := by
  intro dots _
  let b : Braille := dots.foldl (fun c d => c.set d.1 d.2) (empty width height)
  have hb : b = ⟨width, height, dots.reverse⟩ := by
    change dots.foldl _ _ = _
    rw [foldl_set]
    simp [empty]
  refine ⟨b.cellChar, ?_, ?_⟩
  · change b.frame = _
    rw [hb]
    rfl
  · intro cx _ cy _
    refine (showsDots_cellChar b cx cy).congr ?_
    intro dx _ dy _
    simp [cellDots, hb]

end Braille

end Chip8
