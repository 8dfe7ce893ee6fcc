import Chip8.Proofs.Keypad
import Mathlib.Data.List.Induction

/-! A keypad in the light of its history: which keys are held, and which one the latch gives out,
told from the things that were done to it. -/
namespace Chip8.Keypad

/-- One thing done to a keypad. To press a key is to move it down, to release it to move it up. -/
inductive Act where
  | move (n : Nat) (down : Bool)
  | arm
  | take
  | clear
  deriving DecidableEq

def act (k : Keypad) : Act → Keypad
  | .move n down =>
    match k.setKey n down with
    | .ok moved => moved.2
    | .error _ => k
  | .arm => k.arm
  | .take => k.takePress.2
  | .clear => .released

def after (history : List Act) : Keypad := history.foldl act .released

theorem after_concat (history : List Act) (a : Act) :
    after (history ++ [a]) = (after history).act a := by
  simp [after]

/-- Some act was as `P` says, in view of those before it, and all after it are as `Q` says. -/
def Since (P : List Act → Act → Prop) (Q : Act → Prop) (history : List Act) : Prop :=
  ∃ earlier a later, history = earlier ++ a :: later ∧ P earlier a ∧ ∀ b ∈ later, Q b

section Since

variable {P : List Act → Act → Prop} {Q : Act → Prop} {history : List Act}

theorem not_since_nil : ¬ Since P Q [] := by
  rintro ⟨earlier, a, later, h, -⟩
  simp at h

/-- Either the last act is the one, or it can be passed over. -/
theorem since_concat {a : Act} :
    Since P Q (history ++ [a]) ↔ P history a ∨ Q a ∧ Since P Q history := by
  constructor
  · rintro ⟨earlier, b, later, h, hb, hlater⟩
    rcases List.eq_nil_or_concat later with rfl | ⟨rest, c, rfl⟩
    · obtain ⟨rfl, hab⟩ := List.append_inj' h rfl
      cases hab
      exact Or.inl hb
    · rw [List.concat_eq_append] at h hlater
      have hsplit : history ++ [a] = (earlier ++ b :: rest) ++ [c] := by
        rw [h]
        simp
      obtain ⟨hhistory, hac⟩ := List.append_inj' hsplit rfl
      cases hac
      refine Or.inr ⟨hlater a (by simp), earlier, b, rest, hhistory, hb, ?_⟩
      intro d hd
      exact hlater d (List.mem_append_left [a] hd)
  · rintro (ha | ⟨ha, earlier, b, later, rfl, hb, hlater⟩)
    · exact ⟨history, a, [], rfl, ha, by simp⟩
    · refine ⟨earlier, b, later ++ [a], by simp, hb, ?_⟩
      intro c hc
      rcases List.mem_append.mp hc with hold | hnew
      · exact hlater c hold
      · rw [List.mem_singleton.mp hnew]
        exact ha

end Since

/-- The last move of the key since the keypad was last cleared was down. -/
def Down (n : Nat) (history : List Act) : Prop :=
  n < 16 ∧
    Since (fun _ a => a = .move n true) (fun a => a ≠ .clear ∧ ∀ down, a ≠ .move n down) history

/-- The act moves a key down that was up. -/
def GoesDown (n : Nat) (earlier : List Act) (a : Act) : Prop :=
  n < 16 ∧ a = .move n true ∧ ¬ Down n earlier

/-- The acts after which nothing is remembered. -/
def Act.Forgets (a : Act) : Prop := a = .arm ∨ a = .take ∨ a = .clear

/-- Some key went down since all was last forgotten. -/
def SomeDown : List Act → Prop :=
  Since (fun earlier a => ∃ n, GoesDown n earlier a) (fun a => ¬ a.Forgets)

/-- The key went down since all was last forgotten, and none did so before it. -/
def FirstDown (n : Nat) : List Act → Prop :=
  Since (fun earlier a => GoesDown n earlier a ∧ ¬ SomeDown earlier) (fun a => ¬ a.Forgets)

section Act

variable {k : Keypad} {n : Nat} {down : Bool} {a : Act} {history : List Act}

theorem setKey_of_lt (h : n < 16) : k.setKey n down = .ok (k.set ⟨n, h⟩ down) := dif_pos h

theorem setKey_of_le (h : 16 ≤ n) : k.setKey n down = .error (.noSuchKey n) :=
  dif_neg (Nat.not_lt.mpr h)

theorem isPressed_of_le (h : 16 ≤ n) : k.isPressed n = false := dif_neg (Nat.not_lt.mpr h)

theorem isPressed_of_lt (h : n < 16) : k.isPressed n = k.isHeld ⟨n, h⟩ := dif_pos h

theorem act_move_of_lt (h : n < 16) : k.act (.move n down) = (k.set ⟨n, h⟩ down).2 := by
  rw [act, setKey_of_lt h]

theorem act_move_of_le (h : 16 ≤ n) : k.act (.move n down) = k := by
  rw [act, setKey_of_le h]

theorem isPressed_act_move (k : Keypad) (m : Nat) (down : Bool) (hn : n < 16) :
    (k.act (.move m down)).isPressed n = if m = n then down else k.isPressed n := by
  rcases Nat.lt_or_ge m 16 with hm | hm
  · rw [act_move_of_lt hm, isPressed_of_lt hn, isPressed_of_lt hn, isHeld_set]
    simp only [Fin.mk.injEq]
  · rw [act_move_of_le hm, if_neg (by omega)]

/-- One act presses a key if it moves it down, or leaves it alone where it is pressed. -/
theorem isPressed_act_iff (k : Keypad) (a : Act) (hn : n < 16) :
    (k.act a).isPressed n = true ↔
      a = .move n true ∨ (a ≠ .clear ∧ ∀ down, a ≠ .move n down) ∧ k.isPressed n = true := by
  cases a with
  | move m down =>
    rw [isPressed_act_move k m down hn]
    by_cases hm : m = n
    · subst hm
      simp
    · simp [hm]
  | arm | take => simp [act, arm, takePress, isPressed, isHeld]
  | clear => simp [act, isPressed_released]

/-- One act makes the latch hold a key if it moves it down from above and the latch is empty, or if
it leaves the latch alone. -/
theorem latch_act_iff (k : Keypad) (a : Act) (key : Key) :
    (k.act a).latch = some key ↔
      (a = .move key.val true ∧ k.isHeld key = false ∧ k.latch = none) ∨
        ¬ a.Forgets ∧ k.latch = some key := by
  cases a with
  | move m down =>
    rcases Nat.lt_or_ge m 16 with hm | hm
    · rw [act_move_of_lt hm, latch_set]
      by_cases hkey : (⟨m, hm⟩ : Key) = key
      · subst hkey
        cases down <;> cases hh : k.isHeld ⟨m, hm⟩ <;> cases hl : k.latch <;>
          simp [Act.Forgets]
      · have hval : m ≠ key.val := fun h => hkey (Fin.ext h)
        cases down <;> cases hh : k.isHeld ⟨m, hm⟩ <;> cases hl : k.latch <;>
          simp [Act.Forgets, hval, hkey]
    · have hval : m ≠ key.val := by
        have := key.isLt
        omega
      simp [act_move_of_le hm, Act.Forgets, hval]
  | arm | take | clear => simp [act, arm, takePress, released, Act.Forgets]

/-- A key is held just if it was last moved down. -/
theorem isPressed_after_iff (history : List Act) (n : Nat) :
    (after history).isPressed n = true ↔ Down n history := by
  rcases Nat.lt_or_ge n 16 with hn | hn
  · unfold Down
    rw [and_iff_right hn]
    induction history using List.reverseRecOn with
    | nil => exact iff_of_false (by simp [after, isPressed_released]) not_since_nil
    | append_singleton history a ih => rw [after_concat, isPressed_act_iff _ a hn, since_concat, ih]
  · rw [isPressed_of_le hn]
    exact iff_of_false (by decide) fun h => absurd h.1 (Nat.not_lt.mpr hn)

theorem GoesDown.not_forgets (h : GoesDown n history a) : ¬ a.Forgets := by
  rw [h.2.1]
  simp [Act.Forgets]

theorem FirstDown.lt (h : FirstDown n history) : n < 16 := by
  obtain ⟨_, _, _, _, ⟨hdown, -⟩, -⟩ := h
  exact hdown.1

theorem someDown_concat : SomeDown (history ++ [a]) ↔
    (∃ n, GoesDown n history a) ∨ ¬ a.Forgets ∧ SomeDown history := since_concat

theorem firstDown_concat : FirstDown n (history ++ [a]) ↔
    (GoesDown n history a ∧ ¬ SomeDown history) ∨ ¬ a.Forgets ∧ FirstDown n history := since_concat

/-- If some key went down, one of them was the first. -/
theorem exists_firstDown_iff (history : List Act) :
    (∃ n, FirstDown n history) ↔ SomeDown history := by
  induction history using List.reverseRecOn with
  | nil => exact iff_of_false (fun ⟨_, h⟩ => not_since_nil h) not_since_nil
  | append_singleton history a ih =>
    simp only [firstDown_concat, someDown_concat]
    constructor
    · rintro ⟨n, ⟨hdown, -⟩ | ⟨hkeeps, hfirst⟩⟩
      · exact Or.inl ⟨n, hdown⟩
      · exact Or.inr ⟨hkeeps, ih.mp ⟨n, hfirst⟩⟩
    · intro h
      by_cases hsome : SomeDown history
      · -- the first one is older than the last act, which forgets nothing
        have hkeeps : ¬ a.Forgets := h.elim (fun ⟨_, hdown⟩ => hdown.not_forgets) And.left
        obtain ⟨first, hfirst⟩ := ih.mpr hsome
        exact ⟨first, Or.inr ⟨hkeeps, hfirst⟩⟩
      · obtain ⟨n, hdown⟩ := h.resolve_right fun hold => hsome hold.2
        exact ⟨n, Or.inl ⟨hdown, hsome⟩⟩

theorem latch_eq_none_iff (h : ∀ key : Key, k.latch = some key ↔ FirstDown key.val history) :
    k.latch = none ↔ ¬ SomeDown history := by
  rw [← exists_firstDown_iff, Option.eq_none_iff_forall_ne_some]
  constructor
  · rintro hnone ⟨n, hfirst⟩
    exact hnone ⟨n, hfirst.lt⟩ ((h ⟨n, hfirst.lt⟩).mpr hfirst)
  · intro hno key hkey
    exact hno ⟨key.val, (h key).mp hkey⟩

/-- The latch holds the first key that went down. -/
theorem latch_after_iff (history : List Act) (key : Key) :
    (after history).latch = some key ↔ FirstDown key.val history := by
  induction history using List.reverseRecOn generalizing key with
  | nil => exact iff_of_false (by simp [after, released]) not_since_nil
  | append_singleton history a ih =>
    have hup : (after history).isHeld key = false ↔ ¬ Down key.val history := by
      rw [← isPressed_val, ← isPressed_after_iff, Bool.not_eq_true]
    have hnone := latch_eq_none_iff ih
    rw [after_concat, latch_act_iff, ih, hup, hnone, firstDown_concat, GoesDown,
      and_iff_right key.isLt, and_assoc]

end Act

/-- A key is held just if its last move since the keypad was last cleared was down. The latch gives
out the key that was the first to go down since it was last armed, taken from or cleared. -/
theorem keypad_follows_history (history : List Act) :
    let k := after history
    (∀ n, k.isPressed n = true ↔ Down n history) ∧
    (∀ n down, n < 16 →
      ∃ changed, k.setKey n down = .ok (changed, after (history ++ [.move n down])) ∧
        (after (history ++ [.move n down])).isPressed n = down ∧
        (changed = true ↔ k.isPressed n ≠ down)) ∧
    (∀ n down, 16 ≤ n → k.setKey n down = .error (.noSuchKey n) ∧
      after (history ++ [.move n down]) = k) ∧
    (∀ key : Key, k.takePress.1 = some key ↔ FirstDown key.val history) ∧
    (k.takePress.1 = none ↔ ¬ SomeDown history) := by
  intro k
  refine ⟨isPressed_after_iff history, ?_, ?_, latch_after_iff history,
    latch_eq_none_iff (latch_after_iff history)⟩
  · intro n down hn
    refine ⟨(k.set ⟨n, hn⟩ down).1, ?_, ?_, ?_⟩
    · rw [after_concat, act_move_of_lt hn, setKey_of_lt hn]
    · rw [after_concat, isPressed_act_move _ n down hn, if_pos rfl]
    · rw [set_fst, isPressed_of_lt hn, bne_iff_ne]
  · intro n down hn
    exact ⟨setKey_of_le hn, by rw [after_concat, act_move_of_le hn]⟩

/-- A key that is down already does not count, and one that is up again still does. -/
example : (after [.move 3 true, .arm, .move 3 true, .move 10 true, .move 10 false,
    .move 11 true]).takePress.1 = some 10 := by decide

end Chip8.Keypad
