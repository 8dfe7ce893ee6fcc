import Chip8.Proofs.Picture
import Chip8.Window.FrameBuffer
import Mathlib.Data.Finset.Prod

/-! The views of a screen: its pixels in a row, its bytes, two texts, and the colours of a window.
All of them show the same picture, and most of them determine it. -/
namespace Chip8

namespace Screen

open Chip8.Text

variable {s t : Screen}

theorem eq_iff_get : s = t ↔ ∀ x < 64, ∀ y < 32, s.get x y = t.get x y := by
  constructor
  · intro h x _ y _
    rw [h]
  · exact ext_get

theorem getElem_pixels (s : Screen) {i : Nat} (h : i < 2048) :
    s.pixels[i] = s.get (i % 64) (i / 64) := by
  simp only [pixels, Vector.getElem_mk, List.getElem_toArray, toList_eq, List.getElem_map,
    List.getElem_range]

theorem get_blank (x y : Nat) : blank.get x y = false := by
  unfold get
  split
  · simp [lit, blank, get_eq_getElem]
  · rfl

theorem isBlank_iff (s : Screen) :
    s.isBlank = true ↔ ∀ x < 64, ∀ y < 32, s.get x y = false := by
  constructor
  · intro h x hx y hy
    have hzero : s.bytes.getD (8 * y + x / 8) 0 = 0 := by
      have hall := List.all_eq_true.mp h
      rw [List.getD_eq_getElem _ _ (by rw [length_bytes]; omega)]
      exact eq_of_beq (hall _ (List.getElem_mem _))
    rw [← testBit_getD_bytes s hx hy, hzero]
    exact Nat.zero_testBit _
  · intro h
    have hs : s = blank := ext_get fun x hx y hy => (h x hx y hy).trans (get_blank x y).symm
    rw [hs]
    decide +kernel

def litPixels (s : Screen) : Finset (Nat × Nat) :=
  (Finset.range 64 ×ˢ Finset.range 32).filter fun p => s.get p.1 p.2 = true

theorem countP_range (f : Nat → Bool) (n : Nat) :
    (List.range n).countP f = ((Finset.range n).filter fun i => f i = true).card := by
  have hf : (List.range n).filter f = (List.range n).filter fun i => decide (f i = true) := by simp
  rw [List.countP_eq_length_filter, hf]
  rfl

/-- Counting row by row is counting pairs of column and row. -/
theorem card_filter_row_by_row (f : Nat → Nat → Bool) {w : Nat} (hw : 0 < w) (h : Nat) :
    ((Finset.range (w * h)).filter fun i => f (i % w) (i / w) = true).card =
      ((Finset.range w ×ˢ Finset.range h).filter fun p => f p.1 p.2 = true).card := by
  refine Finset.card_nbij' (fun i => (i % w, i / w)) (fun p => w * p.2 + p.1) ?_ ?_ ?_ ?_
  · intro i hi
    simp only [Finset.mem_coe, Finset.mem_filter, Finset.mem_range, Finset.mem_product] at hi ⊢
    exact ⟨⟨Nat.mod_lt i hw, Nat.div_lt_of_lt_mul hi.1⟩, hi.2⟩
  · rintro ⟨x, y⟩ hp
    simp only [Finset.mem_coe, Finset.mem_filter, Finset.mem_range, Finset.mem_product] at hp ⊢
    obtain ⟨⟨hx, hy⟩, hf⟩ := hp
    rw [Nat.mul_add_mod, Nat.mod_eq_of_lt hx, Nat.mul_add_div hw, Nat.div_eq_of_lt hx,
      Nat.add_zero]
    refine ⟨?_, hf⟩
    calc
      w * y + x < w * y + w := Nat.add_lt_add_left hx (w * y)
      _ = w * (y + 1) := (Nat.mul_succ w y).symm
      _ ≤ w * h := Nat.mul_le_mul_left w hy
  · intro i _
    exact Nat.div_add_mod i w
  · rintro ⟨x, y⟩ hp
    simp only [Finset.mem_coe, Finset.mem_filter, Finset.mem_range, Finset.mem_product] at hp
    obtain ⟨⟨hx, -⟩, -⟩ := hp
    simp only [Nat.mul_add_mod, Nat.mod_eq_of_lt hx, Nat.mul_add_div hw, Nat.div_eq_of_lt hx,
      Nat.add_zero]

theorem litCount_eq_card (s : Screen) : s.litCount = s.litPixels.card := by
  rw [litCount, toList_eq, List.count_eq_countP, List.countP_map, countP_range]
  simp only [Function.comp_def, beq_true]
  exact card_filter_row_by_row s.get (by decide) 32

theorem inspect_eq (s : Screen) :
    s.inspect = "Screen \x7b lit: " ++ s.litPixels.card.repr ++ ", .. \x7d" := by
  rw [inspect, litCount_eq_card]
  apply String.toList_inj.mp
  simp [openRecord, recordWith, String.intercalate_cons_cons]

theorem getElem?_draw (b : FrameBuffer) (s : Screen) {x y : Nat} (hx : x < 64) (hy : y < 32) :
    (b.draw s).pixels[64 * y + x]? =
      some (if s.get x y then b.inks.foreground else b.inks.background) := by
  have hi : 64 * y + x < 2048 := by omega
  have hmod : (64 * y + x) % 64 = x := by omega
  have hdiv : (64 * y + x) / 64 = y := by omega
  have hpixel := getElem_pixels s hi
  rw [hmod, hdiv] at hpixel
  rw [FrameBuffer.draw, Vector.getElem?_eq_getElem hi, Vector.getElem_zipWith, hpixel]

/-- Just one screen has any given 256 bytes. -/
theorem existsUnique_bytes {content : List UInt8} (h : content.length = 256) :
    ∃! s : Screen, s.bytes = content := by
  refine ⟨⟨⟨content.toArray, h⟩⟩, rfl, ?_⟩
  intro s hs
  have hcells : s.cells = ⟨content.toArray, h⟩ := Vector.toList_inj.mp hs
  rw [← hcells]

/-- All views of a screen show the same picture, and each of its texts determines it, if the canvas
shows dots where they are set. -/
theorem views_show_same_picture (canvas : Canvas) (hcanvas : canvas.PlacesDots 64 32) :
    (∀ content : List UInt8, content.length = 256 → ∃! s : Screen, s.bytes = content) ∧
    ∀ s : Screen,
      (s.toList.length = 2048 ∧
        ∀ i < 2048, s.toList[i]? = some (s.get (i % 64) (i / 64))) ∧
      (s.bytes.length = 256 ∧ ∀ x < 64, ∀ y < 32,
        (s.bytes.getD (8 * y + x / 8) 0).toNat.testBit (7 - x % 8) = s.get x y) ∧
      HasLines s.text ((List.range 32).map fun y =>
        [Nat.digitChar (y / 10), Nat.digitChar (y % 10), '|'] ++
          ((List.range 64).map fun x => if s.get x y then '█' else ' ') ++ ['|']) ∧
      (∃ cells : Nat → Nat → Char,
        HasLines (s.picture canvas) ((List.range 9).map fun cy =>
          (List.range 33).map fun cx => cells cx cy) ∧
        ∀ cx < 33, ∀ cy < 9, ShowsDots (cells cx cy) fun dx dy =>
          s.get (2 * cx + dx) (4 * cy + dy)) ∧
      (∀ (b : FrameBuffer), ∀ x < 64, ∀ y < 32, (b.draw s).pixels[64 * y + x]? =
        some (if s.get x y then b.inks.foreground else b.inks.background)) ∧
      (s.isBlank = true ↔ ∀ x < 64, ∀ y < 32, s.get x y = false) ∧
      (s.litCount = s.litPixels.card ∧
        s.inspect = "Screen \x7b lit: " ++ s.litPixels.card.repr ++ ", .. \x7d") ∧
      ∀ t : Screen, (s = t ↔ ∀ x < 64, ∀ y < 32, s.get x y = t.get x y) ∧
        (s = t ↔ s.text = t.text) ∧ (s = t ↔ s.picture canvas = t.picture canvas) := by
  constructor
  · intro content h
    exact existsUnique_bytes h
  · intro s
    refine ⟨⟨length_toList s, ?_⟩, ⟨length_bytes s, fun x hx y hy => testBit_getD_bytes s hx hy⟩,
      hasLines_text s, exists_cells_of_picture hcanvas s,
      fun b x hx y hy => getElem?_draw b s hx hy, isBlank_iff s,
      ⟨litCount_eq_card s, inspect_eq s⟩, fun t => ⟨eq_iff_get, ?_, ?_⟩⟩
    · intro i hi
      rw [toList_eq, List.getElem?_map, List.getElem?_range hi, Option.map_some]
    · exact ⟨congrArg text, text_inj⟩
    · exact ⟨congrArg (picture canvas), picture_inj hcanvas⟩

/-- A screen with every other column lit. Each of its characters in braille has some dots, and
those in the line and in the column that the screen does not fill are spaces. -/
theorem views_show_same_stripes :
    Braille.canvas.PlacesDots 64 32 ∧ (List.replicate 256 (0xaa : UInt8)).length = 256 ∧
      ∃ s : Screen, s.bytes = List.replicate 256 0xaa ∧ s.get 0 0 = true ∧ s.isBlank = false ∧
        ∃ cells : Nat → Nat → Char,
          HasLines (s.picture Braille.canvas) ((List.range 9).map fun cy =>
            (List.range 33).map fun cx => cells cx cy) ∧
          (cells 0 0).toNat / 256 = 0x28 ∧ cells 32 8 = ' ' := by
  have hcanvas := Braille.placesDots_canvas 64 32
  have hlength : (List.replicate 256 (0xaa : UInt8)).length = 256 := List.length_replicate
  obtain ⟨hbytes, hviews⟩ := views_show_same_picture Braille.canvas hcanvas
  obtain ⟨s, hs, -⟩ := hbytes _ hlength
  obtain ⟨-, ⟨-, hbits⟩, -, ⟨cells, hlines, hcells⟩, -, hblank, -⟩ := hviews s
  have hlit : s.get 0 0 = true := by
    rw [← hbits 0 (by decide) 0 (by decide), hs]
    rfl
  refine ⟨hcanvas, hlength, s, hs, hlit, ?_, cells, hlines, ?_, ?_⟩
  · rw [Bool.eq_false_iff]
    intro h
    rw [hblank.mp h 0 (by decide) 0 (by decide)] at hlit
    cases hlit
  · exact ((hcells 0 (by decide) 0 (by decide)).braille
      ⟨0, by decide, 0, by decide, hlit⟩).1
  · exact (hcells 32 (by decide) 8 (by decide)).space fun dx _ dy _ => dif_neg (by omega)

end Screen

end Chip8
