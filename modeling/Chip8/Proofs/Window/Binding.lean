import Chip8.Window.Viewer

/-! Which keys are bound to what, and which of them count as pressed after some keys were handled one
by one. -/
namespace Chip8

namespace KeyCode

variable {w code : KeyCode} {key : Key}

theorem exists_of_padKey? (hw : w.padKey? = some key) :
    (∃ n, w = .digit n) ∨ ∃ n, w = .letter n := by
  cases w with
  | digit n => exact Or.inl ⟨n, rfl⟩
  | letter n => exact Or.inr ⟨n, rfl⟩
  | _ => cases hw

/-- No two keys stand for the same key of the keypad. -/
theorem padKey?_inj (hw : w.padKey? = some key) (hcode : code.padKey? = some key) : code = w := by
  have hdigits : ∀ n k : Fin 10, (digit n).padKey? = (digit k).padKey? →
      (digit n).padKey?.isSome → n = k := by decide +kernel
  have hletters : ∀ n k : Fin 26, (letter n).padKey? = (letter k).padKey? →
      (letter n).padKey?.isSome → n = k := by decide +kernel
  have hmixed : ∀ (n : Fin 10) (k : Fin 26), (digit n).padKey? = (letter k).padKey? →
      ¬ (digit n).padKey?.isSome := by decide +kernel
  have hsame : code.padKey? = w.padKey? := hcode.trans hw.symm
  have hbound : code.padKey?.isSome := Option.isSome_of_mem hcode
  obtain ⟨k, rfl⟩ | ⟨k, rfl⟩ := exists_of_padKey? hcode
  · obtain ⟨n, rfl⟩ | ⟨n, rfl⟩ := exists_of_padKey? hw
    · rw [hdigits k n hsame hbound]
    · exact absurd hbound (hmixed k n hsame)
  · obtain ⟨n, rfl⟩ | ⟨n, rfl⟩ := exists_of_padKey? hw
    · rw [hsame] at hbound
      exact absurd hbound (hmixed n k hsame.symm)
    · rw [hletters k n hsame hbound]

/-- The keys that reset the machine, F9 and Delete. -/
def resets : List KeyCode := [.function ⟨8, by decide⟩, .delete]

/-- A key with a character on it is for the keypad or for nothing. -/
theorem binding_of_char? (hc : code.char?.isSome) :
    code.binding = code.padKey?.elim .unbound .press := by
  cases code with
  | digit n | letter n => rfl
  | _ => cases hc

theorem binding_eq_press_iff : code.binding = .press key ↔ code.padKey? = some key := by
  have hfunction : ∀ n, (function n).binding ≠ .press key := by
    revert key
    decide
  cases code with
  | digit n | letter n =>
    rw [binding_of_char? rfl]
    cases padKey? _ <;> simp
  | function n => simp [hfunction n, padKey?, char?]
  | _ => simp [binding, padKey?, char?]

theorem binding_eq_reset_iff : code.binding = .reset ↔ code ∈ resets := by
  have hfunction : ∀ n, (function n).binding = .reset ↔ function n ∈ resets := by decide
  cases code with
  | digit n | letter n =>
    rw [binding_of_char? rfl]
    cases padKey? _ <;> simp [resets]
  | function n => exact hfunction n
  | _ => simp [binding, resets, padKey?, char?]

/-- Whether a poll goes on after a key that went down. -/
def goesOn (code : KeyCode) : Bool := code.binding ≠ .quit

def outside (others codes : List KeyCode) : List KeyCode :=
  codes.filter fun code => !others.contains code

theorem mem_outside {others codes : List KeyCode} :
    w ∈ outside others codes ↔ w ∈ codes ∧ w ∉ others := by
  simp [outside]

/-- `w` was handled, and no key that resets since it was handled last. -/
def PressedSinceReset (handled : List KeyCode) (w : KeyCode) : Prop :=
  ∃ before after, handled = before ++ w :: after ∧ w ∉ after ∧ ∀ code ∈ after, code ∉ resets

theorem PressedSinceReset.mem {handled : List KeyCode} (h : PressedSinceReset handled w) :
    w ∈ handled := by
  obtain ⟨before, after, rfl, -⟩ := h
  simp

theorem not_pressedSinceReset_nil : ¬ PressedSinceReset [] w := fun h => by cases h.mem

theorem pressedSinceReset_of_mem {handled : List KeyCode} (hw : w ∈ handled)
    (hr : ∀ code ∈ handled, code ∉ resets) : PressedSinceReset handled w := by
  obtain ⟨after, before, hsplit, hlast⟩ := List.eq_append_cons_of_mem (List.mem_reverse.mpr hw)
  have hhandled : handled = before.reverse ++ w :: after.reverse := by
    rw [← List.reverse_reverse handled, hsplit]
    simp
  refine ⟨before.reverse, after.reverse, hhandled, by simpa using hlast, fun code hcode => ?_⟩
  refine hr code ?_
  rw [hhandled]
  simp [List.mem_reverse.mp hcode]

theorem pressedSinceReset_append (earlier later : List KeyCode) (w : KeyCode) :
    PressedSinceReset (earlier ++ later) w ↔
      PressedSinceReset later w ∨
        (PressedSinceReset earlier w ∧ ∀ code ∈ later, code ∉ resets) := by
  constructor
  · rintro ⟨before, after, hsplit, hlast, hr⟩
    rcases List.append_eq_append_iff.mp hsplit with ⟨between, rfl, rfl⟩ | ⟨between, rfl, hlater⟩
    · exact Or.inl ⟨between, after, rfl, hlast, hr⟩
    · cases between with
      | nil => exact Or.inl ⟨[], after, hlater.symm, hlast, hr⟩
      | cons code between =>
        obtain ⟨rfl, rfl⟩ := List.cons.inj hlater
        refine Or.inr ⟨⟨before, between, rfl, ?_, ?_⟩, ?_⟩
        · exact fun hm => hlast (List.mem_append_left later hm)
        · exact fun code hm => hr code (List.mem_append_left later hm)
        · exact fun code hm => hr code (List.mem_append_right between hm)
  · have hgrow : PressedSinceReset later w → PressedSinceReset (earlier ++ later) w := by
      rintro ⟨before, after, rfl, hlast, hr⟩
      exact ⟨earlier ++ before, after, (List.append_assoc _ _ _).symm, hlast, hr⟩
    rintro (hp | ⟨⟨before, after, rfl, hlast, hr⟩, hlater⟩)
    · exact hgrow hp
    · by_cases hw : w ∈ later
      · exact hgrow (pressedSinceReset_of_mem hw hlater)
      · refine ⟨before, after ++ later, by simp, by simp [hlast, hw], fun code hm => ?_⟩
        exact (List.mem_append.mp hm).elim (hr code) (hlater code)

theorem pressedSinceReset_singleton : PressedSinceReset [code] w ↔ code = w := by
  constructor
  · intro h
    exact (List.mem_singleton.mp h.mem).symm
  · rintro rfl
    exact ⟨[], [], rfl, by simp, by simp⟩

end KeyCode

end Chip8
