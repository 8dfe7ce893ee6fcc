import Chip8.Machine.Basic

/-! The list of breakpoints. Taking one out shuffles the others, but neither loses nor doubles
any of them. -/
namespace Chip8.Machine

private theorem replace_perm_cons_erase {a : UInt16} (b : UInt16) {points : List UInt16}
    (ha : a ∈ points) : (points.replace a b).Perm (b :: points.erase a) := by
  induction points with
  | nil => cases ha
  | cons p points ih =>
    by_cases hp : p = a
    · subst p
      simp
    · have hm : a ∈ points := (List.mem_cons.mp ha).resolve_left (Ne.symm hp)
      have hb : (a == p) = false := beq_eq_false_iff_ne.mpr (Ne.symm hp)
      have hr : (p :: points).replace a b = p :: points.replace a b := by
        simp [List.replace_cons, hb]
      have he : (p :: points).erase a = p :: points.erase a := by
        simp [hp]
      rw [hr, he]
      exact ((ih hm).cons p).trans (.swap b p _)

/-- Putting the last entry into the gap is taking `a` out, but for the order. -/
theorem without_perm_erase (a : UInt16) (points : List UInt16) :
    (without a points).Perm (points.erase a) := by
  unfold without
  cases hl : points.getLast? with
  | none =>
    rw [List.getLast?_eq_none_iff.mp hl]
    exact .refl _
  | some last =>
    obtain ⟨init, rfl⟩ := List.getLast?_eq_some_iff.mp hl
    dsimp only
    split
    · rename_i ha
      rw [List.dropLast_concat]
      by_cases hi : a ∈ init
      · rw [List.erase_append_left _ hi]
        exact (replace_perm_cons_erase last hi).trans (List.perm_append_singleton last _).symm
      · have hal : a = last := by simpa [hi] using ha
        subst last
        rw [List.replace_of_not_mem hi, List.erase_append_right _ hi]
        simp
    · rename_i ha
      rw [List.erase_of_not_mem ha]

/-- A breakpoint changes nothing else. -/
theorem setBreak_eq (m : Machine) (a : UInt16) :
    m.setBreak a = { m with breakpoints := (m.setBreak a).breakpoints } := by
  unfold setBreak
  split <;> rfl

variable {a : UInt16} {points : List UInt16}

theorem nodup_append_singleton (h : points.Nodup) (ha : a ∉ points) : (points ++ [a]).Nodup :=
  List.nodup_append.mpr ⟨h, by simp, by simpa using fun b hb => ne_of_mem_of_not_mem hb ha⟩

theorem nodup_without (a : UInt16) (h : points.Nodup) : (without a points).Nodup :=
  (without_perm_erase a points).nodup_iff.mpr (h.erase a)

theorem nodup_setBreak {m : Machine} (a : UInt16) (h : m.breakpoints.Nodup) :
    (m.setBreak a).breakpoints.Nodup := by
  unfold setBreak
  split
  · exact h
  · rename_i ha
    exact nodup_append_singleton h ha

theorem nodup_unsetBreak {m : Machine} (a : UInt16) (h : m.breakpoints.Nodup) :
    (m.unsetBreak a).breakpoints.Nodup :=
  nodup_without a h

/-- The breakpoint is gone, and no other is. -/
theorem mem_unsetBreak {m : Machine} (h : m.breakpoints.Nodup) (a b : UInt16) :
    b ∈ (m.unsetBreak a).breakpoints ↔ b ≠ a ∧ b ∈ m.breakpoints :=
  (without_perm_erase a m.breakpoints).mem_iff.trans h.mem_erase_iff

end Chip8.Machine
