import Chip8.Memory.Basic
import Mathlib.Data.List.GetD
import Mathlib.Tactic.ByContra

/-! What memory holds after bytes were written to it in a row. -/
namespace Chip8.Memory

theorem wrap_of_lt {a : Nat} (h : a < 4096) : wrap a = a := Nat.mod_eq_of_lt h

theorem ext_read {m n : Memory} (h : ∀ a < 4096, m.read a = n.read a) : m = n := by
  obtain ⟨cells⟩ := m
  obtain ⟨cells'⟩ := n
  refine congrArg Memory.mk (Vector.ext fun a ha => ?_)
  have hr := h a ha
  simpa only [read, get_eq_getElem, wrap_of_lt ha] using hr

/-- Bytes that do not run over the end of memory stand one after the other, and nothing else
changes. -/
theorem read_writeBytes {m : Memory} {a c : Nat} {data : List UInt8} (h : a + data.length ≤ 4096)
    (hc : c < 4096) :
    (m.writeBytes a data).read c =
      if a ≤ c then data.getD (c - a) (m.read c) else m.read c := by
  induction data generalizing m a with
  | nil => simp [writeBytes]
  | cons b rest ih =>
    rw [List.length_cons] at h
    rw [writeBytes, ih (by omega), read_write, wrap_of_lt (by omega : a < 4096), wrap_of_lt hc]
    rcases Nat.lt_trichotomy a c with hlt | heq | hgt
    · have hs : c - a = (c - (a + 1)) + 1 := by omega
      rw [if_pos (by omega : a + 1 ≤ c), if_pos (by omega : a ≤ c), if_neg (by omega), hs]
      simp
    · subst heq
      rw [if_neg (by omega : ¬ a + 1 ≤ a), if_pos rfl, if_pos (Nat.le_refl a), Nat.sub_self]
      rfl
    · rw [if_neg (by omega : ¬ a + 1 ≤ c), if_neg (by omega : ¬ a ≤ c), if_neg (by omega)]

/-- A cell that no byte falls on keeps its value, also where the bytes run over the end. -/
theorem read_writeBytes_of_ne {m : Memory} {a c : Nat} {data : List UInt8}
    (h : ∀ k < data.length, wrap (a + k) ≠ wrap c) : (m.writeBytes a data).read c = m.read c := by
  induction data generalizing m a with
  | nil => rfl
  | cons b rest ih =>
    have hfirst : wrap a ≠ wrap c := h 0 (by simp)
    have hrest : ∀ k < rest.length, wrap (a + 1 + k) ≠ wrap c := by
      intro k hk
      have hs := h (k + 1) (by simpa using hk)
      rwa [Nat.add_comm k 1, ← Nat.add_assoc] at hs
    rw [writeBytes, ih hrest, read_write, if_neg hfirst]

/-- A cell that changes lies in the row that was written, which may run over the end. -/
theorem exists_of_read_writeBytes {m : Memory} {a c : Nat} {data : List UInt8} (hc : c < 4096)
    (h : (m.writeBytes a data).read c ≠ m.read c) :
    ∃ k < data.length, c = (a + k) % 4096 := by
  by_contra hno
  refine h (read_writeBytes_of_ne fun k hk hw => hno ⟨k, hk, ?_⟩)
  rw [wrap_of_lt hc] at hw
  exact hw.symm

theorem read_zero (c : Nat) : zero.read c = 0 := by
  simp [read, zero, get_eq_getElem]

theorem read_fresh {c : Nat} (hc : c < 4096) :
    fresh.read c = if 0x050 ≤ c then Font.bytes.getD (c - 0x050) 0 else 0 := by
  have h : Font.start + Font.bytes.length ≤ 4096 := by decide
  rw [fresh, read_writeBytes h hc, read_zero]
  rfl

/-- There is nothing but zeros where programs go. -/
theorem read_fresh_of_le {c : Nat} (h : 0x200 ≤ c) (hc : c < 4096) : fresh.read c = 0 := by
  have hl : Font.bytes.length ≤ c - 0x050 := by
    have : Font.bytes.length = 80 := rfl
    omega
  rw [read_fresh hc, if_pos (by omega), List.getD_eq_default _ _ hl]

theorem clearRegion_fresh : fresh.clearRegion .program = fresh := by
  apply ext_read
  intro c hc
  have h : Region.program.start +
      (List.replicate Region.program.size (0 : UInt8)).length ≤ 4096 := by
    rw [List.length_replicate]
    decide
  rw [clearRegion, read_writeBytes h hc]
  split
  · rename_i hs
    rw [read_fresh_of_le hs hc]
    rw [List.getD_eq_getElem?_getD, List.getElem?_replicate]
    split <;> rfl
  · rfl

end Chip8.Memory
