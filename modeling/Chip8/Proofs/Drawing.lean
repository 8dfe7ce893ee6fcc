import Chip8.Machine.Operation
import Chip8.Proofs.Sprite
import Mathlib.Algebra.BigOperators.Group.Finset.Piecewise
import Mathlib.Algebra.BigOperators.Group.Finset.Sigma
import Mathlib.Algebra.Ring.Parity

/-! What drawing does to each pixel. A pixel changes if it is hit an odd number of times, so the
order of drawings does not matter and drawing everything twice changes nothing. -/
namespace Chip8

namespace Screen

/-- Flipping pixels in turn changes those that are flipped an odd number of times. -/
theorem lit_flip (s : Screen) (ps : List Pixel) (q : Pixel) :
    (s.flip ps).2.lit q = (s.lit q ^^ decide (Odd (ps.count q))) := by
  induction ps generalizing s with
  | nil => simp [flip]
  | cons p ps ih =>
    have hf : (s.flip (p :: ps)).2 = ((s.toggle p).2.flip ps).2 := rfl
    rw [hf, ih, lit_toggle]
    by_cases h : p = q
    · subst h
      have hodd : decide (Odd (ps.count p + 1)) = !decide (Odd (ps.count p)) := by
        rw [← decide_not]
        exact decide_eq_decide.mpr Nat.odd_add_one
      rw [if_pos rfl, List.count_cons_self, hodd, Bool.not_xor, Bool.xor_not]
    · rw [if_neg h, List.count_cons_of_ne h]

/-- A lit pixel goes dark if it was lit before and is flipped at all, or if it is flipped twice. -/
theorem flip_fst_eq_true_iff (s : Screen) (ps : List Pixel) :
    (s.flip ps).1 = true ↔ ∃ q, s.lit q = true ∧ 1 ≤ ps.count q ∨ 2 ≤ ps.count q := by
  induction ps generalizing s with
  | nil => simp [flip]
  | cons p ps ih =>
    have hf : (s.flip (p :: ps)).1 = (s.lit p || ((s.toggle p).2.flip ps).1) := rfl
    have hother : ∀ q, p ≠ q →
        ((s.toggle p).2.lit q = s.lit q ∧ (p :: ps).count q = ps.count q) := by
      intro q h
      exact ⟨by rw [lit_toggle, if_neg h], List.count_cons_of_ne h⟩
    have hself : (s.toggle p).2.lit p = !s.lit p := by rw [lit_toggle, if_pos rfl]
    rw [hf, Bool.or_eq_true, ih]
    constructor
    · rintro (hp | ⟨q, hq⟩)
      · exact ⟨p, Or.inl ⟨hp, by simp⟩⟩
      · by_cases h : p = q
        · subst h
          exact ⟨p, Or.inr (by rw [List.count_cons_self]; omega)⟩
        · rw [(hother q h).1, ← (hother q h).2] at hq
          exact ⟨q, hq⟩
    · rintro ⟨q, hq⟩
      by_cases h : p = q
      · subst h
        rw [List.count_cons_self] at hq
        cases hp : s.lit p with
        | true => exact Or.inl rfl
        | false =>
          have hc : 1 ≤ ps.count p := by simpa [hp] using hq
          exact Or.inr ⟨p, Or.inl ⟨by rw [hself, hp]; rfl, hc⟩⟩
      · rw [← (hother q h).1, (hother q h).2] at hq
        exact Or.inr ⟨q, hq⟩

/-- A cell at `(cx, cy)` falls on the pixel `(px, py)`. Beyond the edge it comes back on the other
side, or falls on nothing. -/
def Lands (wrap : Bool) (cx cy px py : Nat) : Prop :=
  if wrap then px = cx % 64 ∧ py = cy % 32 else px = cx ∧ py = cy

instance (wrap : Bool) (cx cy px py : Nat) : Decidable (Lands wrap cx cy px py) :=
  inferInstanceAs (Decidable (if wrap then _ else _))

/-- The cells of a row, by their columns, that are set and fall on a pixel. -/
def rowHits (wrap : Bool) (x y : Nat) (row : UInt8) (px py : Nat) : Finset Nat :=
  (Finset.range 8).filter fun bit =>
    row.toNat.testBit (7 - bit) = true ∧ Lands wrap (x + bit) y px py

/-- How many cells of a sprite with its corner at `(x, y)` are set and fall on the pixel
`(px, py)`. -/
def hits (wrap : Bool) (x y : Nat) (sprite : List UInt8) (px py : Nat) : Nat :=
  ((Finset.range sprite.length ×ˢ Finset.range 8).filter fun c =>
    (sprite.getD c.1 0).toNat.testBit (7 - c.2) = true ∧
      Lands wrap (x % 64 + c.2) (y % 32 + c.1) px py).card

theorem place_eq_some_iff {wrap : Bool} {cx cy : Nat} {p : Pixel} :
    place wrap cx cy = some p ↔ Lands wrap cx cy p.column.val p.row.val := by
  obtain ⟨⟨px, hx⟩, ⟨py, hy⟩⟩ := p
  have hw : Pixel.wrapped cx cy = ⟨⟨px, hx⟩, ⟨py, hy⟩⟩ ↔ px = cx % 64 ∧ py = cy % 32 := by
    simp [Pixel.wrapped, eq_comm]
  cases wrap with
  | true => simpa [place, Lands] using hw
  | false =>
    by_cases hin : cx < width ∧ cy < height
    · have hx : cx % 64 = cx := Nat.mod_eq_of_lt hin.1
      have hy : cy % 32 = cy := Nat.mod_eq_of_lt hin.2
      rw [place_of_lt hin.1 hin.2, Option.some.injEq, hw, hx, hy, Lands]
      rfl
    · have hp : place false cx cy = none := by
        simpa [place] using hin
      have hn : ¬ (px = cx ∧ py = cy) := by
        rintro ⟨rfl, rfl⟩
        exact hin ⟨hx, hy⟩
      simpa [hp, Lands] using hn

theorem count_coverRow (wrap : Bool) (x y : Nat) (row : UInt8) (p : Pixel) :
    (coverRow wrap x y row).count p = (rowHits wrap x y row p.column.val p.row.val).card := by
  have hcell : ∀ bit, ((if row.toNat.testBit (7 - bit) then place wrap (x + bit) y else none) ==
      some p) = decide (row.toNat.testBit (7 - bit) = true ∧
        Lands wrap (x + bit) y p.column.val p.row.val) := by
    intro bit
    rw [Bool.eq_iff_iff, decide_eq_true_eq, beq_iff_eq, ← place_eq_some_iff]
    cases row.toNat.testBit (7 - bit) <;> simp
  rw [coverRow, List.count_filterMap, List.countP_congr fun bit _ => by rw [hcell],
    List.countP_eq_length_filter]
  rfl

theorem count_cover (wrap : Bool) (x y : Nat) (sprite : List UInt8) (p : Pixel) :
    (cover wrap x y sprite).count p = ∑ line ∈ Finset.range sprite.length,
      (rowHits wrap x (y + line) (sprite.getD line 0) p.column.val p.row.val).card := by
  induction sprite generalizing y with
  | nil => rfl
  | cons row rest ih =>
    rw [cover, List.count_append, count_coverRow, ih, List.length_cons, Finset.sum_range_succ',
      Nat.add_comm]
    simp only [List.getD_cons_succ, List.getD_cons_zero, Nat.add_zero, Nat.add_assoc,
      Nat.add_comm 1]

theorem hits_eq_count (wrap : Bool) (x y : Nat) (sprite : List UInt8) (p : Pixel) :
    hits wrap x y sprite p.column.val p.row.val =
      (cover wrap (x % width) (y % height) sprite).count p := by
  rw [count_cover]
  simp only [hits, rowHits, Finset.card_filter, Finset.sum_product]
  rfl

/-- Without more rows than the screen has, no two cells fall on one pixel. -/
theorem hits_le_one (wrap : Bool) (x y : Nat) {sprite : List UInt8} (h : sprite.length ≤ 32)
    (px py : Nat) : hits wrap x y sprite px py ≤ 1 := by
  apply Finset.card_le_one.mpr
  rintro ⟨line, bit⟩ hc ⟨line', bit'⟩ hc'
  simp only [Finset.mem_filter, Finset.mem_product, Finset.mem_range] at hc hc'
  obtain ⟨⟨hl, hb⟩, -, hp⟩ := hc
  obtain ⟨⟨hl', hb'⟩, -, hp'⟩ := hc'
  cases wrap with
  | true =>
    simp only [Lands, if_true] at hp hp'
    exact Prod.ext (by omega) (by omega)
  | false =>
    simp only [Lands, Bool.false_eq_true, if_false] at hp hp'
    exact Prod.ext (by omega) (by omega)

theorem get_draw (s : Screen) (x y : Nat) (sprite : List UInt8) (wrap : Bool) {px py : Nat}
    (hx : px < 64) (hy : py < 32) :
    (s.draw x y sprite wrap).2.get px py =
      (s.get px py ^^ decide (Odd (hits wrap x y sprite px py))) := by
  have hh := hits_eq_count wrap x y sprite ⟨⟨px, hx⟩, ⟨py, hy⟩⟩
  dsimp only at hh
  rw [get_eq_lit _ hx hy, get_eq_lit _ hx hy, draw_eq_flip, lit_flip, hh]

theorem draw_fst_eq_true_iff (s : Screen) (x y : Nat) (sprite : List UInt8) (wrap : Bool) :
    (s.draw x y sprite wrap).1 = true ↔ ∃ px < 64, ∃ py < 32,
      s.get px py = true ∧ 1 ≤ hits wrap x y sprite px py ∨
        2 ≤ hits wrap x y sprite px py := by
  rw [draw_eq_flip, flip_fst_eq_true_iff]
  constructor
  · rintro ⟨p, hp⟩
    rw [← hits_eq_count] at hp
    refine ⟨p.column.val, p.column.isLt, p.row.val, p.row.isLt, ?_⟩
    rwa [get_eq_lit s p.column.isLt p.row.isLt]
  · rintro ⟨px, hx, py, hy, hp⟩
    refine ⟨⟨⟨px, hx⟩, ⟨py, hy⟩⟩, ?_⟩
    rwa [← hits_eq_count, ← get_eq_lit s hx hy]

/-- A sprite with no more rows than the screen darkens a pixel only if that was lit before. -/
theorem draw_fst_eq_true_iff_of_le (s : Screen) (x y : Nat) {sprite : List UInt8}
    (h : sprite.length ≤ 32) (wrap : Bool) :
    (s.draw x y sprite wrap).1 = true ↔ ∃ px < 64, ∃ py < 32,
      s.get px py = true ∧ 1 ≤ hits wrap x y sprite px py := by
  rw [draw_fst_eq_true_iff]
  constructor
  · rintro ⟨px, hx, py, hy, hp | hp⟩
    · exact ⟨px, hx, py, hy, hp⟩
    · have hone := hits_le_one wrap x y h px py
      omega
  · rintro ⟨px, hx, py, hy, hp⟩
    exact ⟨px, hx, py, hy, Or.inl hp⟩

/-- One sprite, where it is drawn, and what becomes of it at the edges. -/
structure Drawing where
  x : Nat
  y : Nat
  sprite : List UInt8
  wrap : Bool
  deriving DecidableEq

def drawAll (s : Screen) (ds : List Drawing) : Screen :=
  ds.foldl (fun s d => (s.draw d.x d.y d.sprite d.wrap).2) s

def Drawing.cover (d : Drawing) : List Pixel :=
  Screen.cover d.wrap (d.x % width) (d.y % height) d.sprite

def Drawing.hits (d : Drawing) (px py : Nat) : Nat :=
  Screen.hits d.wrap d.x d.y d.sprite px py

theorem drawAll_eq_flip (s : Screen) (ds : List Drawing) :
    s.drawAll ds = (s.flip (ds.flatMap Drawing.cover)).2 := by
  induction ds generalizing s with
  | nil => rfl
  | cons d ds ih =>
    have hd : s.drawAll (d :: ds) = (s.draw d.x d.y d.sprite d.wrap).2.drawAll ds := rfl
    rw [hd, ih, List.flatMap_cons, flip_append, draw_eq_flip]
    rfl

theorem drawAll_append (s : Screen) (ds es : List Drawing) :
    s.drawAll (ds ++ es) = (s.drawAll ds).drawAll es :=
  List.foldl_append

/-- A pixel changes if all drawings together hit it an odd number of times. -/
theorem lit_drawAll (s : Screen) (ds : List Drawing) (p : Pixel) :
    (s.drawAll ds).lit p =
      (s.lit p ^^ decide (Odd (ds.map fun d => d.hits p.column.val p.row.val).sum)) := by
  have hcount : (ds.flatMap Drawing.cover).count p =
      (ds.map fun d => d.hits p.column.val p.row.val).sum := by
    rw [List.count_flatMap]
    refine congrArg List.sum (List.map_congr_left fun d _ => ?_)
    exact (hits_eq_count d.wrap d.x d.y d.sprite p).symm
  rw [drawAll_eq_flip, lit_flip, hcount]

/-- Whether a sum over a list is odd depends only on what occurs in the list an odd number of
times. -/
theorem odd_sum_map_congr {ds es : List Drawing}
    (h : ∀ d, Odd (ds.count d) ↔ Odd (es.count d)) (f : Drawing → Nat) :
    Odd (ds.map f).sum ↔ Odd (es.map f).sum := by
  let all := ds.toFinset ∪ es.toFinset
  have hsum : ∀ l : List Drawing, l.toFinset ⊆ all →
      (l.map f).sum = ∑ d ∈ all, l.count d * f d := by
    intro l hl
    rw [Finset.sum_list_map_count]
    simp only [Nat.nsmul_eq_mul]
    refine Finset.sum_subset hl fun d _ hd => ?_
    have hc : l.count d = 0 := List.count_eq_zero.mpr (by simpa using hd)
    rw [hc, Nat.zero_mul]
  have hmod : ∀ d, ds.count d * f d % 2 = es.count d * f d % 2 := by
    intro d
    have hd := h d
    rw [Nat.odd_iff, Nat.odd_iff] at hd
    rw [Nat.mul_mod, Nat.mul_mod (es.count d)]
    have : ds.count d % 2 = es.count d % 2 := by omega
    rw [this]
  rw [hsum ds Finset.subset_union_left, hsum es Finset.subset_union_right, Nat.odd_iff,
    Nat.odd_iff, Finset.sum_nat_mod, Finset.sum_nat_mod all 2 fun d => es.count d * f d]
  simp only [hmod]

theorem drawAll_congr (s : Screen) {ds es : List Drawing}
    (h : ∀ d, Odd (ds.count d) ↔ Odd (es.count d)) : s.drawAll ds = s.drawAll es := by
  apply ext_lit
  intro p
  rw [lit_drawAll, lit_drawAll, decide_eq_decide.mpr (odd_sum_map_congr h _)]

/-- Drawings form a group under exclusive or: a pixel changes if all of them together hit it an odd
number of times, in whatever order they are drawn. -/
theorem drawings_form_xor_group (s : Screen) :
    (∀ ds es : List Drawing, ds.Perm es → s.drawAll ds = s.drawAll es) ∧
      (∀ ds es : List Drawing, ds.Perm es → (s.drawAll ds).drawAll es = s) ∧
      (∀ ds es : List Drawing, (∀ d, Odd (ds.count d) ↔ Odd (es.count d)) →
        s.drawAll ds = s.drawAll es) ∧
      ∀ (ds : List Drawing), ∀ px < 64, ∀ py < 32, (s.drawAll ds).get px py =
        (s.get px py ^^ decide (Odd (ds.map fun d => d.hits px py).sum)) := by
  refine ⟨?_, ?_, fun ds es h => drawAll_congr s h, ?_⟩
  · intro ds es h
    exact drawAll_congr s fun d => by rw [h.count_eq]
  · intro ds es h
    have hnone : s.drawAll [] = s := rfl
    rw [← drawAll_append]
    refine (drawAll_congr s fun d => ?_).trans hnone
    have htwice : (ds ++ es).count d = 2 * es.count d := by
      rw [List.count_append, h.count_eq]
      omega
    rw [htwice, List.count_nil, Nat.odd_iff, Nat.odd_iff]
    omega
  · intro ds px hx py hy
    rw [get_eq_lit _ hx hy, get_eq_lit _ hx hy, lit_drawAll]

/-- Two sprites lie over each other and over the corner, one cut off and the other not. -/
theorem drawings_cancel_in_the_corner :
    let s := (blank.draw 0 0 [0xf0, 0x90] false).2
    let a : Drawing := ⟨62, 31, [0xff, 0x81, 0xff], true⟩
    let b : Drawing := ⟨126, 63, [0xf0, 0xff], false⟩
    s.drawAll [a, b, a] = s.drawAll [b, a, a] ∧ (s.drawAll [a, b]).drawAll [b, a] = s ∧
      s.drawAll [a, a, b] = s.drawAll [b] ∧ (s.drawAll [b]).get 63 31 = true ∧
      (s.drawAll [b]).get 1 1 = false ∧ (s.drawAll [a, b]).get 1 0 = true := by
  intro s a b
  have hrun : (s.drawAll [b]).get 63 31 = true ∧ (s.drawAll [b]).get 1 1 = false ∧
      (s.drawAll [a, b]).get 1 0 = true := by decide +kernel
  obtain ⟨hperm, htwice, hodd, -⟩ := drawings_form_xor_group s
  refine ⟨hperm _ _ (by decide), htwice _ _ (by decide), hodd _ _ ?_, hrun⟩
  intro d
  have hcount : [a, a, b].count d = 2 * [a].count d + [b].count d := by
    simp only [List.count_cons, List.count_nil]
    omega
  rw [hcount, Nat.odd_iff, Nat.odd_iff]
  omega

end Screen

namespace Machine

open Screen

/-- What `Dxyn` makes of a machine: the rows come from memory, and the corner from the registers as
they were before `vF` was set. -/
theorem execute_draw (m : Machine) (x y : Register) (n : Fin 16) :
    ∃ k, m.execute (.draw x y n) = .ok k ∧
      k.screen = (m.screen.draw (m.v.get x).toNat (m.v.get y).toNat
        ((List.range n.val).map fun j => m.memory.read ((m.i.toNat + j) % 4096))
        m.flags.dialect.screenWrap).2 ∧
      k.v = m.v.set vF (if (m.screen.draw (m.v.get x).toNat (m.v.get y).toNat
        ((List.range n.val).map fun j => m.memory.read ((m.i.toNat + j) % 4096))
        m.flags.dialect.screenWrap).1 then 1 else 0) := by
  have hrows : m.memory.readBytes m.i.toNat n.val =
      (List.range n.val).map fun j => m.memory.read ((m.i.toNat + j) % 4096) :=
    List.map_congr_left fun j _ => (Memory.read_wrap m.memory (m.i.toNat + j)).symm
  rw [← hrows]
  exact ⟨_, rfl, rfl, rfl⟩

/-- A pixel changes if the set cells of the sprite hit it an odd number of times. A collision is
told if a lit pixel is hit or any pixel is hit twice, which is too often for the sprites of `Dxyn`.
-/
theorem draw_exact_to_the_pixel (s : Screen) (x y : Nat) (sprite : List UInt8) (wrap : Bool) :
    (∀ px < 64, ∀ py < 32, (s.draw x y sprite wrap).2.get px py =
      (s.get px py ^^ decide (Odd (hits wrap x y sprite px py)))) ∧
    ((s.draw x y sprite wrap).1 = true ↔ ∃ px < 64, ∃ py < 32,
      s.get px py = true ∧ 1 ≤ hits wrap x y sprite px py ∨
        2 ≤ hits wrap x y sprite px py) ∧
    ∀ (m : Machine) (vx vy : Register) (n : Fin 16),
      let rows := (List.range n.val).map fun j => m.memory.read ((m.i.toNat + j) % 4096)
      let hitsAt := hits m.flags.dialect.screenWrap (m.v.get vx).toNat (m.v.get vy).toNat rows
      ∃ k, m.execute (.draw vx vy n) = .ok k ∧
        (∀ px < 64, ∀ py < 32, k.screen.get px py =
          (m.screen.get px py ^^ decide (Odd (hitsAt px py)))) ∧
        (k.v.get vF = 1 ↔ ∃ px < 64, ∃ py < 32, m.screen.get px py = true ∧ 1 ≤ hitsAt px py) ∧
        (k.v.get vF = 0 ↔
          ¬ ∃ px < 64, ∃ py < 32, m.screen.get px py = true ∧ 1 ≤ hitsAt px py) ∧
        ∀ r, r ≠ vF → k.v.get r = m.v.get r := by
  refine ⟨fun px hx py hy => get_draw s x y sprite wrap hx hy,
    draw_fst_eq_true_iff s x y sprite wrap, ?_⟩
  intro m vx vy n rows hitsAt
  obtain ⟨k, hk, hscreen, hv⟩ := execute_draw m vx vy n
  have hrows : rows.length ≤ 32 := by
    have hn := n.isLt
    simp only [rows, List.length_map, List.length_range]
    omega
  have hhit := draw_fst_eq_true_iff_of_le m.screen (m.v.get vx).toNat (m.v.get vy).toNat hrows
    m.flags.dialect.screenWrap
  have hflag : k.v.get vF = if (m.screen.draw (m.v.get vx).toNat (m.v.get vy).toNat rows
      m.flags.dialect.screenWrap).1 then 1 else 0 := by
    rw [hv, Registers.get_set, if_pos rfl]
  refine ⟨k, hk, ?_, ?_, ?_, ?_⟩
  · intro px hx py hy
    rw [hscreen]
    exact get_draw _ _ _ _ _ hx hy
  · rw [hflag, ← hhit]
    split <;> simp [*]
  · rw [hflag, ← hhit]
    split <;> simp [*]
  · intro r hr
    rw [hv, Registers.get_set, if_neg (Ne.symm hr)]

/-- A sprite of 33 rows that comes back at the top collides with itself on a blank screen, and the
glyph `0` drawn over itself, with `vF` for both coordinates, sets `vF`. -/
theorem draw_exact_of_tall_sprite :
    let tall : List UInt8 := List.replicate 33 0x80
    let m := Operation.run (boot {} (.ofSeed 0))
      [.load [0xa0, 0x50, 0xdf, 0xf5], .reset, .multistep 2]
    hits true 0 0 tall 0 0 = 2 ∧ (blank.draw 0 0 tall true).2.get 0 0 = false ∧
      (blank.draw 0 0 tall true).1 = true ∧
      ∃ k, m.execute (.draw vF vF ⟨5, by decide⟩) = .ok k ∧ k.v.get vF = 1 := by
  intro tall m
  have hhits : hits true 0 0 tall 0 0 = 2 := by decide +kernel
  have hlit : m.screen.get 0 0 = true ∧
      1 ≤ hits m.flags.dialect.screenWrap (m.v.get vF).toNat (m.v.get vF).toNat
        ((List.range 5).map fun j => m.memory.read ((m.i.toNat + j) % 4096)) 0 0 := by
    decide +kernel
  obtain ⟨hpixel, hcollision, hdraw⟩ := draw_exact_to_the_pixel blank 0 0 tall true
  obtain ⟨k, hk, -, hflag, -⟩ := hdraw m vF vF ⟨5, by decide⟩
  refine ⟨hhits, ?_, hcollision.mpr ⟨0, by decide, 0, by decide, Or.inr hhits.ge⟩, k, hk,
    hflag.mpr ⟨0, by decide, 0, by decide, hlit⟩⟩
  have heven : decide (Odd (hits true 0 0 tall 0 0)) = false := by
    rw [hhits]
    decide
  rw [hpixel 0 (by decide) 0 (by decide), heven]
  decide +kernel

end Machine

end Chip8
