import Chip8.Keypad

/-! Which keys go down, and how the latch remembers the first of them. -/
namespace Chip8.Keypad

theorem isPressed_val (k : Keypad) (key : Key) : k.isPressed key.val = k.isHeld key :=
  dif_pos key.isLt

theorem isHeld_released (key : Key) : released.isHeld key = false := by
  simp [released, isHeld, get_eq_getElem]

theorem isPressed_released (n : Nat) : released.isPressed n = false := by
  unfold isPressed
  split
  · exact isHeld_released _
  · rfl

/-- The keys that are up before and down after. -/
def wentDown (before after : Keypad) : List Key :=
  (List.finRange 16).filter fun key => !before.isHeld key && after.isHeld key

theorem mem_wentDown {before after : Keypad} {key : Key} :
    key ∈ before.wentDown after ↔ before.isHeld key = false ∧ after.isHeld key = true := by
  simp [wentDown]

theorem wentDown_self (k : Keypad) : k.wentDown k = [] := by
  rw [List.eq_nil_iff_forall_not_mem]
  intro key hk
  obtain ⟨hu, hd⟩ := mem_wentDown.mp hk
  rw [hu] at hd
  cases hd

private theorem filter_eq_self (key : Key) :
    (List.finRange 16).filter (fun other => decide (key = other)) = [key] := by
  revert key
  decide

theorem wentDown_set (k : Keypad) (key : Key) (down : Bool) :
    k.wentDown (k.set key down).2 = if k.isHeld key = false ∧ down = true then [key] else [] := by
  split
  · rename_i h
    rw [← filter_eq_self key]
    unfold wentDown
    congr 1
    funext other
    rw [isHeld_set]
    by_cases he : key = other
    · subst he
      simp [h]
    · simp [he]
  · rename_i h
    rw [List.eq_nil_iff_forall_not_mem]
    intro other ho
    obtain ⟨hu, hd⟩ := mem_wentDown.mp ho
    rw [isHeld_set] at hd
    split at hd
    · rename_i he
      subst he
      exact h ⟨hu, hd⟩
    · rw [hu] at hd
      cases hd

/-- The latch keeps what it has, and else takes the key that went down. -/
theorem latch_set_eq_or (k : Keypad) (key : Key) (down : Bool) :
    (k.set key down).2.latch = k.latch.or (k.wentDown (k.set key down).2).head? := by
  rw [wentDown_set, latch_set]
  split
  · rfl
  · simp

end Chip8.Keypad
