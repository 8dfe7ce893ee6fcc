import Chip8.Proofs.Screen
import Chip8.Screen.Sprite
import Mathlib.Data.List.Basic

/-! Drawing a sprite is flipping the pixels it covers, one after the other. -/
namespace Chip8.Screen

/-- Where a cell of a sprite falls. Beyond the edge it comes back on the other side, or is cut
off. -/
def place (wrap : Bool) (x y : Nat) : Option Pixel :=
  if wrap || (x < width && y < height) then some (Pixel.wrapped x y) else none

/-- The pixels covered by one row, from left to right. -/
def coverRow (wrap : Bool) (x y : Nat) (row : UInt8) : List Pixel :=
  (List.range 8).filterMap fun bit =>
    if row.toNat.testBit (7 - bit) then place wrap (x + bit) y else none

/-- The pixels covered by a sprite, row by row. A pixel may be covered more than once. -/
def cover (wrap : Bool) (x y : Nat) : List UInt8 → List Pixel
  | [] => []
  | row :: rest => coverRow wrap x y row ++ cover wrap x (y + 1) rest

/-- Flips the pixels in turn, and tells whether one of them was lit. -/
def flip (s : Screen) : List Pixel → Bool × Screen
  | [] => (false, s)
  | p :: rest =>
    let hit := s.toggle p
    let later := hit.2.flip rest
    (hit.1 || later.1, later.2)

theorem flip_append (s : Screen) (ps qs : List Pixel) :
    s.flip (ps ++ qs) =
      ((s.flip ps).1 || ((s.flip ps).2.flip qs).1, ((s.flip ps).2.flip qs).2) := by
  induction ps generalizing s with
  | nil => simp [flip]
  | cons p ps ih => simp [flip, ih, Bool.or_assoc]

theorem place_of_lt {x y : Nat} (hx : x < width) (hy : y < height) (wrap : Bool) :
    place wrap x y = some (Pixel.wrapped x y) := by
  simp [place, hx, hy]

theorem place_of_right {x : Nat} (hx : width ≤ x) (y : Nat) : place false x y = none := by
  simp [place, Nat.not_lt.mpr hx]

theorem place_of_below (x : Nat) {y : Nat} (hy : height ≤ y) : place false x y = none := by
  simp [place, Nat.not_lt.mpr hy]

theorem cover_of_below (x : Nat) {y : Nat} (hy : height ≤ y) (sprite : List UInt8) :
    cover false x y sprite = [] := by
  induction sprite generalizing y with
  | nil => rfl
  | cons row rest ih =>
    have hrow : coverRow false x y row = [] := by
      rw [coverRow, List.filterMap_eq_nil_iff]
      intro bit _
      rw [place_of_below _ hy, ite_self]
    rw [cover, hrow, ih (Nat.le_succ_of_le hy), List.nil_append]

/-- Beyond an edge that cuts sprites off. -/
theorem beyond_edge_iff {a b : Nat} {wrap : Bool} :
    (decide (a ≤ b) && !wrap) = true ↔ a ≤ b ∧ wrap = false := by
  rw [Bool.and_eq_true, decide_eq_true_eq, Bool.not_eq_true']

/-- Ending a row at the edge leaves out just those cells that fall on no pixel. -/
theorem drawRow_eq_flip {wrap : Bool} {y : Nat} (hy : ¬ (height ≤ y ∧ wrap = false)) (x : Nat)
    (row : UInt8) (s : Screen) {k n : Nat} (hk : k + n ≤ 8) :
    drawRow wrap x y row (List.range' k n) s = s.flip ((List.range' k n).filterMap fun bit =>
      if row.toNat.testBit (7 - bit) then place wrap (x + bit) y else none) := by
  induction n generalizing k s with
  | zero => rfl
  | succ n ih =>
    have hset : (row &&& bitMask k != 0) = row.toNat.testBit (7 - k) :=
      and_bitMask_bne_zero row (by omega)
    have hnext : k + 1 + n ≤ 8 := by omega
    by_cases hedge : width ≤ x + k ∧ wrap = false
    · obtain ⟨hx, rfl⟩ := hedge
      have hout : ∀ bit ∈ List.range' k (n + 1),
          (if row.toNat.testBit (7 - bit) then place false (x + bit) y else none) = none := by
        intro bit hb
        have hle : k ≤ bit := (List.mem_range'_1.mp hb).1
        rw [place_of_right (by omega), ite_self]
      rw [List.filterMap_eq_nil_iff.mpr hout, List.range'_succ, drawRow,
        if_pos (beyond_edge_iff.mpr ⟨hx, rfl⟩), flip]
    · have hplace : place wrap (x + k) y = some (Pixel.wrapped (x + k) y) := by
        cases wrap with
        | true => rfl
        | false =>
          have hx : x + k < width := Nat.lt_of_not_le fun h => hedge ⟨h, rfl⟩
          exact place_of_lt hx (Nat.lt_of_not_le fun h => hy ⟨h, rfl⟩) false
      rw [List.range'_succ, drawRow, if_neg (mt beyond_edge_iff.mp hedge), hset]
      cases hbit : row.toNat.testBit (7 - k) with
      | true => simp only [if_true, List.filterMap_cons, hbit, hplace, flip, ih _ hnext]
      | false =>
        simp only [Bool.false_eq_true, if_false, List.filterMap_cons, hbit, ih _ hnext]

/-- Stopping at the lower edge leaves out just those rows that fall on no pixel. -/
theorem drawRows_eq_flip (wrap : Bool) (x y : Nat) (sprite : List UInt8) (s : Screen) :
    drawRows wrap x y sprite s = s.flip (cover wrap x y sprite) := by
  induction sprite generalizing y s with
  | nil => rfl
  | cons row rest ih =>
    rw [drawRows]
    by_cases hedge : height ≤ y ∧ wrap = false
    · obtain ⟨hy, rfl⟩ := hedge
      rw [if_pos (beyond_edge_iff.mpr ⟨hy, rfl⟩), cover_of_below x hy, flip]
    · have hrow := drawRow_eq_flip hedge x row s (k := 0) (n := 8) (by decide)
      rw [← List.range_eq_range'] at hrow
      rw [if_neg (mt beyond_edge_iff.mp hedge), cover, coverRow, flip_append, ← hrow, ← ih]

theorem draw_eq_flip (s : Screen) (x y : Nat) (sprite : List UInt8) (wrap : Bool) :
    s.draw x y sprite wrap = s.flip (cover wrap (x % width) (y % height) sprite) :=
  drawRows_eq_flip wrap (x % width) (y % height) sprite s

theorem coverRow_of_le {x y : Nat} (hx : x + 8 ≤ width) (hy : y < height) (wrap : Bool)
    (row : UInt8) : coverRow wrap x y row = coverRow false x y row := by
  apply List.filterMap_congr
  intro bit hb
  have hb := List.mem_range.mp hb
  rw [place_of_lt (by omega) hy, place_of_lt (by omega) hy]

/-- A sprite that stays inside the edges covers the same pixels whether it would be cut off there
or come back on the other side. -/
theorem cover_of_le {x y : Nat} {sprite : List UInt8} (hx : x + 8 ≤ width)
    (hy : y + sprite.length ≤ height) (wrap : Bool) :
    cover wrap x y sprite = cover false x y sprite := by
  induction sprite generalizing y with
  | nil => rfl
  | cons row rest ih =>
    rw [List.length_cons] at hy
    rw [cover, cover, coverRow_of_le hx (by omega), ih (by omega)]

theorem draw_of_le {s : Screen} {x y : Nat} {sprite : List UInt8} (hx : x % 64 ≤ 56)
    (hy : y % 32 + sprite.length ≤ 32) (wrap : Bool) :
    s.draw x y sprite wrap = s.draw x y sprite false := by
  have hw : x % width + 8 ≤ width := by
    change x % 64 + 8 ≤ 64
    omega
  have hh : y % height + sprite.length ≤ height := hy
  rw [draw_eq_flip, draw_eq_flip, cover_of_le hw hh]

end Chip8.Screen
