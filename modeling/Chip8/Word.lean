/-! The sizes of things: addresses, register numbers, keys, and bytes put together into numbers. -/
namespace Chip8

/-- A place in the 4096 bytes of memory. Arithmetic on it wraps around. -/
abbrev Address := BitVec 12

abbrev Register := Fin 16

abbrev Key := Fin 16

/-- The last hexadecimal digit of a number. -/
def lastDigit (n : Nat) : Fin 16 := ⟨n % 16, Nat.mod_lt n (by decide)⟩

def addressWord (a : Address) : UInt16 := UInt16.ofNat a.toNat

/-- The number that some bytes stand for, the most significant first. -/
def bigEndian (bytes : List UInt8) : Nat :=
  bytes.foldl (fun n b => 256 * n + b.toNat) 0

/-- The last `count` bytes of a number, the most significant first. -/
def bigEndianBytes : (count n : Nat) → List UInt8
  | 0, _ => []
  | count + 1, n => bigEndianBytes count (n / 256) ++ [UInt8.ofNat n]

def wordOfBytes (high low : UInt8) : UInt16 :=
  UInt16.ofNat (256 * high.toNat + low.toNat)

theorem digit_lt (d : Fin 16) : d.val < 16 := d.isLt

theorem get_eq_getElem {α : Type} {n : Nat} (cells : Vector α n) (k : Fin n) :
    cells.get k = cells[k.val] := rfl

@[simp] theorem val_lastDigit (n : Nat) : (lastDigit n).val = n % 16 := rfl

@[simp] theorem toNat_addressWord (a : Address) : (addressWord a).toNat = a.toNat := by
  have ha := a.isLt
  simp only [addressWord, UInt16.toNat_ofNat']
  omega

@[simp] theorem toNat_wordOfBytes (high low : UInt8) :
    (wordOfBytes high low).toNat = 256 * high.toNat + low.toNat := by
  have hh := high.toNat_lt
  have hl := low.toNat_lt
  simp only [wordOfBytes, UInt16.toNat_ofNat']
  omega

@[simp] theorem length_bigEndianBytes (count n : Nat) :
    (bigEndianBytes count n).length = count := by
  induction count generalizing n with
  | zero => rfl
  | succ count ih => simp [bigEndianBytes, ih]

end Chip8
