import Chip8.Text.Digits
import Chip8.Text.Numeral
import Mathlib.Algebra.Group.Nat.Defs

/-! Hexadecimal numbers as text: their digits are the fewest that fill the width, and stand for the
number when they are read. -/
namespace Chip8.Text

/-- The number that digits stand for when they come after those of `n`. -/
def digitsValue (base n : Nat) (cs : List Char) : Nat :=
  cs.foldl (fun n c => base * n + (digitValue? base c).getD 0) n

def hexDigits : List Char :=
  ['0', '1', '2', '3', '4', '5', '6', '7', '8', '9', 'a', 'b', 'c', 'd', 'e', 'f']

/-- The number in hexadecimal, with at least `width` digits and no more than needed. -/
structure IsHex (width n : Nat) (cs : List Char) : Prop where
  digits : ∀ c ∈ cs, c ∈ hexDigits
  value : digitsValue 16 0 cs = n
  wide : width ≤ cs.length
  shortest : ∀ k, 0 < k → width ≤ k → n < 16 ^ k → cs.length ≤ k

/-- The last `width` hexadecimal digits of a number. -/
def hexColumns : Nat → Nat → List Char
  | 0, _ => []
  | width + 1, n => hexColumns width (n / 16) ++ [Nat.digitChar (n % 16)]

variable {base limit n : Nat} {cs : List Char}

theorem digitsValue_append (base n : Nat) (front back : List Char) :
    digitsValue base n (front ++ back) = digitsValue base (digitsValue base n front) back :=
  List.foldl_append

theorem le_digitsValue (hb : 0 < base) (n : Nat) (cs : List Char) : n ≤ digitsValue base n cs := by
  induction cs generalizing n with
  | nil => exact Nat.le_refl n
  | cons c rest ih =>
    calc
      n ≤ base * n := Nat.le_mul_of_pos_left n hb
      _ ≤ base * n + (digitValue? base c).getD 0 := Nat.le_add_right _ _
      _ ≤ digitsValue base n (c :: rest) := ih _

/-- Digits are read as long as their number is not too large. -/
theorem readDigits_eq_ok (hb : 0 < base) (hd : ∀ c ∈ cs, (digitValue? base c).isSome = true)
    (hv : digitsValue base n cs ≤ limit) :
    readDigits base limit n cs = .ok (digitsValue base n cs) := by
  induction cs generalizing n with
  | nil => rfl
  | cons c rest ih =>
    obtain ⟨d, hc⟩ := Option.isSome_iff_exists.mp (hd c List.mem_cons_self)
    have hstep : digitsValue base n (c :: rest) = digitsValue base (base * n + d) rest := by
      rw [digitsValue, List.foldl_cons, hc]
      rfl
    rw [hstep] at hv ⊢
    have hfits : base * n + d ≤ limit := Nat.le_trans (le_digitsValue hb _ rest) hv
    rw [readDigits, hc]
    simp only [if_pos hfits]
    exact ih (fun e he => hd e (List.mem_cons_of_mem c he)) hv

theorem digitValue?_of_mem {c : Char} (h : c ∈ hexDigits) : (digitValue? 16 c).isSome = true := by
  have hall : hexDigits.all (fun d => (digitValue? 16 d).isSome) = true := by decide
  exact List.all_eq_true.mp hall c h

theorem digitChar_mem {d : Nat} (h : d < 16) : Nat.digitChar d ∈ hexDigits := by
  revert d
  decide

theorem digitValue?_digitChar {d : Nat} (h : d < 16) :
    digitValue? 16 (Nat.digitChar d) = some d := by
  revert d
  decide

theorem digitsValue_concat {d : Nat} (hd : d < 16) :
    digitsValue 16 n (cs ++ [Nat.digitChar d]) = 16 * digitsValue 16 n cs + d := by
  rw [digitsValue_append]
  simp [digitsValue, digitValue?_digitChar hd]

theorem mem_hexDigits_of_mem_toDigits {c : Char} (h : c ∈ Nat.toDigits 16 n) : c ∈ hexDigits := by
  induction n using Nat.strongRecOn with
  | ind n ih =>
    rcases Nat.lt_or_ge n 16 with hn | hn
    · rw [Nat.toDigits_of_lt_base hn, List.mem_singleton] at h
      rw [h]
      exact digitChar_mem hn
    · rw [Nat.toDigits_of_base_le (by decide) hn, List.mem_append, List.mem_singleton] at h
      rcases h with hc | rfl
      · exact ih (n / 16) (by omega) hc
      · exact digitChar_mem (Nat.mod_lt n (by decide))

theorem digitsValue_toDigits (n : Nat) : digitsValue 16 0 (Nat.toDigits 16 n) = n := by
  induction n using Nat.strongRecOn with
  | ind n ih =>
    rcases Nat.lt_or_ge n 16 with hn | hn
    · rw [Nat.toDigits_of_lt_base hn]
      simp [digitsValue, digitValue?_digitChar hn]
    · rw [Nat.toDigits_of_base_le (by decide) hn, digitsValue_concat (Nat.mod_lt n (by decide)),
        ih (n / 16) (by omega)]
      omega

theorem digitsValue_replicate_zero (k : Nat) (cs : List Char) :
    digitsValue 16 0 (List.replicate k '0' ++ cs) = digitsValue 16 0 cs := by
  have hzero : digitsValue 16 0 (List.replicate k '0') = 0 := by
    induction k with
    | zero => rfl
    | succ k ih => exact ih
  rw [digitsValue_append, hzero]

theorem isHex_hex (width n : Nat) : IsHex width n (hex width n).toList := by
  have hlist : (hex width n).toList =
      List.replicate (width - (Nat.toDigits 16 n).length) '0' ++ Nat.toDigits 16 n :=
    String.toList_ofList
  have hlength : (hex width n).toList.length = max width (Nat.toDigits 16 n).length := by
    rw [hlist, List.length_append, List.length_replicate]
    omega
  refine ⟨?_, ?_, ?_, ?_⟩
  · intro c hc
    rw [hlist, List.mem_append, List.mem_replicate] at hc
    rcases hc with ⟨-, rfl⟩ | hc
    · decide
    · exact mem_hexDigits_of_mem_toDigits hc
  · rw [hlist, digitsValue_replicate_zero, digitsValue_toDigits]
  · rw [hlength]
    exact Nat.le_max_left _ _
  · intro k hk hw hn
    have hfew : (Nat.toDigits 16 n).length ≤ k := (Nat.length_toDigits_le_iff (by decide) hk).mpr hn
    rw [hlength]
    exact Nat.max_le.mpr ⟨hw, hfew⟩

theorem digitsValue_hexColumns (width n : Nat) :
    digitsValue 16 0 (hexColumns width n) = n % 16 ^ width := by
  induction width generalizing n with
  | zero =>
    rw [hexColumns, Nat.pow_zero, Nat.mod_one]
    rfl
  | succ width ih =>
    rw [hexColumns, digitsValue_concat (Nat.mod_lt n (by decide)), ih, Nat.pow_succ',
      Nat.mod_mul, Nat.add_comm]

/-- A number that fits its columns is printed as the digits in them. -/
theorem toList_hex_of_lt {width : Nat} (hw : 0 < width) (h : n < 16 ^ width) :
    (hex width n).toList = hexColumns width n := by
  obtain ⟨w, rfl⟩ := Nat.exists_eq_succ_of_ne_zero (Nat.ne_of_gt hw)
  clear hw
  rw [hex, String.toList_ofList]
  induction w generalizing n with
  | zero =>
    have hn : n < 16 := h
    rw [Nat.toDigits_of_lt_base hn, hexColumns, Nat.mod_eq_of_lt hn]
    rfl
  | succ w ih =>
    have hdiv : n / 16 < 16 ^ (w + 1) := Nat.div_lt_of_lt_mul (by rwa [← Nat.pow_succ'])
    rw [hexColumns, ← ih hdiv]
    rcases Nat.lt_or_ge n 16 with hn | hn
    · -- there is one digit, and the columns before it are filled up
      have hzero : Nat.toDigits 16 (n / 16) = ['0'] := by
        rw [Nat.div_eq_of_lt hn]
        rfl
      rw [Nat.toDigits_of_lt_base hn, hzero, Nat.mod_eq_of_lt hn]
      simp [List.leftpad, List.replicate_succ']
    · rw [Nat.toDigits_of_base_le (by decide) hn]
      simp [List.leftpad]

theorem toList_hex_ne_nil (width n : Nat) : (hex width n).toList ≠ [] := by
  rw [hex, String.toList_ofList]
  intro h
  have hsuffix : Nat.toDigits 16 n <:+ [] := by
    rw [← h]
    exact List.leftpad_suffix
  exact Nat.toDigits_ne_nil (List.suffix_nil.mp hsuffix)

theorem readDigits_hex (width : Nat) (h : n ≤ limit) :
    readDigits 16 limit 0 (hex width n).toList = .ok n := by
  have hhex := isHex_hex width n
  have hdigits : ∀ c ∈ (hex width n).toList, (digitValue? 16 c).isSome = true :=
    fun c hc => digitValue?_of_mem (hhex.digits c hc)
  have hfits : digitsValue 16 0 (hex width n).toList ≤ limit := by
    rw [hhex.value]
    exact h
  rw [readDigits_eq_ok (by decide) hdigits hfits, hhex.value]

end Chip8.Text
