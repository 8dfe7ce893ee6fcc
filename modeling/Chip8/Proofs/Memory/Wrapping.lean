import Chip8.Proofs.Memory
import Mathlib.Data.List.Induction
import Mathlib.Tactic.Push
import Mathlib.Tactic.Ring

/-! Memory as a ring of bytes: rows of bytes that run over its end, and the numbers that are made
of them. -/
namespace Chip8

theorem bigEndian_concat (bytes : List UInt8) (b : UInt8) :
    bigEndian (bytes ++ [b]) = 256 * bigEndian bytes + b.toNat := by
  simp [bigEndian]

theorem bigEndian_append (front back : List UInt8) :
    bigEndian (front ++ back) = 256 ^ back.length * bigEndian front + bigEndian back := by
  induction back using List.reverseRecOn with
  | nil => simp [bigEndian]
  | append_singleton back b ih =>
    rw [← List.append_assoc, bigEndian_concat, ih, bigEndian_concat, List.length_append,
      List.length_singleton, Nat.pow_succ]
    ring

theorem bigEndian_bigEndianBytes (count n : Nat) :
    bigEndian (bigEndianBytes count n) = n % 256 ^ count := by
  induction count generalizing n with
  | zero => simp [bigEndianBytes, bigEndian, Nat.mod_one]
  | succ count ih =>
    have hb : (UInt8.ofNat n).toNat = n % 256 := UInt8.toNat_ofNat'
    rw [bigEndianBytes, bigEndian_concat, ih, hb, Nat.pow_succ', Nat.mod_mul]
    omega

namespace Memory

variable {m n : Memory} {a b c : Nat} {data : List UInt8}

theorem read_val (m : Memory) (c : Fin 4096) : m.read c.val = m.cells.get c := by
  have hc : (⟨wrap c.val, wrap_lt c.val⟩ : Fin 4096) = c := Fin.ext (wrap_of_lt c.isLt)
  rw [read, hc]

theorem wrap_add_congr (h : wrap a = wrap b) (k : Nat) : wrap (a + k) = wrap (b + k) := by
  unfold wrap size at *
  omega

/-- A cell holds the last byte that falls on it. -/
theorem read_writeBytes_of_last {o : Nat} (ho : o < data.length) (hc : wrap (a + o) = wrap c)
    (hlast : ∀ k, o < k → k < data.length → wrap (a + k) ≠ wrap c) :
    (m.writeBytes a data).read c = data[o] := by
  induction data generalizing m a o with
  | nil => simp at ho
  | cons b rest ih =>
    have hshift : ∀ k, a + 1 + k = a + (k + 1) := by
      intro k
      omega
    cases o with
    | zero =>
      have hrest : ∀ k < rest.length, wrap (a + 1 + k) ≠ wrap c := by
        intro k hk
        rw [hshift]
        exact hlast (k + 1) (by omega) (by simpa using hk)
      rw [Nat.add_zero] at hc
      rw [writeBytes, read_writeBytes_of_ne hrest, read_write, if_pos hc]
      rfl
    | succ o =>
      rw [writeBytes, List.getElem_cons_succ]
      refine ih (by simpa using ho) (by rwa [hshift]) ?_
      intro k hk hlen
      rw [hshift]
      exact hlast (k + 1) (by omega) (by simpa using hlen)

/-- No two of at most 4096 bytes fall on one cell, so each of them is there afterwards. -/
theorem read_writeBytes_add (h : data.length ≤ 4096) {o : Nat} (ho : o < data.length) :
    (m.writeBytes a data).read (a + o) = data[o] := by
  refine read_writeBytes_of_last ho rfl ?_
  intro k hk hlen
  unfold wrap size
  omega

theorem readBytes_writeBytes (h : data.length ≤ 4096) :
    (m.writeBytes a data).readBytes a data.length = data := by
  apply List.ext_getElem
  · rw [length_readBytes]
  · intro o _ ho
    simpa [readBytes] using read_writeBytes_add h ho

/-- What a cell holds after a row of bytes depends on no other cell. -/
theorem read_writeBytes_congr (h : m.read c = n.read c) :
    (m.writeBytes a data).read c = (n.writeBytes a data).read c := by
  induction data generalizing m n a with
  | nil => exact h
  | cons b rest ih =>
    rw [writeBytes, writeBytes]
    apply ih
    rw [read_write, read_write, h]

/-- Two rows of bytes that share no cell can be written in either order. -/
theorem writeBytes_comm {other : List UInt8}
    (h : ∀ o < data.length, ∀ k < other.length, wrap (a + o) ≠ wrap (b + k)) :
    (m.writeBytes a data).writeBytes b other = (m.writeBytes b other).writeBytes a data := by
  apply ext_read
  intro c _
  by_cases hc : ∀ o < data.length, wrap (a + o) ≠ wrap c
  · rw [read_writeBytes_of_ne hc]
    exact read_writeBytes_congr (read_writeBytes_of_ne hc)
  · -- the cell lies in the first row, so the second row leaves it alone
    push Not at hc
    obtain ⟨o, ho, hoc⟩ := hc
    have hother : ∀ k < other.length, wrap (b + k) ≠ wrap c := by
      intro k hk hkc
      exact h o ho k hk (hoc.trans hkc.symm)
    rw [read_writeBytes_of_ne hother]
    exact (read_writeBytes_congr (read_writeBytes_of_ne hother)).symm

theorem writeBytes_append (m : Memory) (a : Nat) (front back : List UInt8) :
    m.writeBytes a (front ++ back) = (m.writeBytes a front).writeBytes (a + front.length) back := by
  induction front generalizing m a with
  | nil => rfl
  | cons b front ih =>
    rw [List.cons_append, writeBytes, writeBytes, ih, List.length_cons, Nat.add_right_comm,
      Nat.add_assoc]

theorem readBytes_add (m : Memory) (a j k : Nat) :
    m.readBytes a (j + k) = m.readBytes a j ++ m.readBytes (a + j) k := by
  simp only [readBytes, List.range_add, List.map_append, List.map_map, Function.comp_def,
    Nat.add_assoc]

theorem readBytes_congr (h : wrap a = wrap b) (count : Nat) :
    m.readBytes a count = m.readBytes b count := by
  refine List.map_congr_left fun k _ => ?_
  rw [← read_wrap, wrap_add_congr h, read_wrap]

theorem writeBytes_congr (h : wrap a = wrap b) : m.writeBytes a data = m.writeBytes b data := by
  induction data generalizing m a b with
  | nil => rfl
  | cons d rest ih =>
    have hwrite : m.write a d = m.write b d := by
      rw [← write_wrap, h, write_wrap]
    rw [writeBytes, writeBytes, hwrite]
    exact ih (wrap_add_congr h 1)

theorem readNumber_congr (h : wrap a = wrap b) (width : Nat) :
    m.readNumber width a = m.readNumber width b := by
  rw [readNumber, readNumber, readBytes_congr h]

theorem writeNumber_congr (h : wrap a = wrap b) (width n : Nat) :
    m.writeNumber width a n = m.writeNumber width b n :=
  writeBytes_congr h

/-- A number in memory is made of those in the first and in the last bytes of its place. -/
theorem readNumber_add (m : Memory) (a j k : Nat) :
    m.readNumber (j + k) a = 256 ^ k * m.readNumber j a + m.readNumber k ((a + j) % 4096) := by
  have hw : wrap ((a + j) % 4096) = wrap (a + j) := wrap_wrap (a + j)
  rw [readNumber_congr hw, readNumber, readBytes_add, bigEndian_append, length_readBytes]
  rfl

theorem readNumber_writeNumber {width n : Nat} (hw : width ≤ 4096) (hn : n < 256 ^ width) :
    (m.writeNumber width a n).readNumber width a = n := by
  have hl : (bigEndianBytes width n).length = width := length_bigEndianBytes width n
  have hb := readBytes_writeBytes (m := m) (a := a) (hl.trans_le hw)
  rw [hl] at hb
  rw [readNumber, writeNumber, hb, bigEndian_bigEndianBytes, Nat.mod_eq_of_lt hn]

theorem readNumber_one (m : Memory) (a : Nat) : m.readNumber 1 a = (m.read a).toNat := by
  simp [readNumber, readBytes, bigEndian]

/-- The word that is fetched at an address is the number in the two bytes from there on. -/
theorem toNat_word (m : Memory) (a : Nat) : (m.word a).toNat = m.readNumber 2 a := by
  simp [word, readNumber, readBytes, bigEndian, List.range_succ]

/-- A row of bytes leaves in each cell the last byte that falls on it and touches no other cell, and
numbers of up to 4096 bytes are read back as they were written. -/
theorem accesses_wrap_around (m : Memory) (a : Nat) :
    (∀ (data : List UInt8) (c : Fin 4096),
      (∀ o (ho : o < data.length), (a + o) % 4096 = c.val →
        (∀ k, o < k → k < data.length → (a + k) % 4096 ≠ c.val) →
        (m.writeBytes a data).cells.get c = data[o]) ∧
      ((∀ o < data.length, (a + o) % 4096 ≠ c.val) →
        (m.writeBytes a data).cells.get c = m.cells.get c)) ∧
    (∀ count, (m.readBytes a count).length = count ∧
      ∀ o < count, ∀ c : Fin 4096, (a + o) % 4096 = c.val →
        (m.readBytes a count)[o]? = some (m.cells.get c)) ∧
    (∀ data : List UInt8, data.length ≤ 4096 →
      (m.writeBytes a data).readBytes a data.length = data) ∧
    (∀ (data other : List UInt8) (b : Nat),
      (∀ o < data.length, ∀ k < other.length, (a + o) % 4096 ≠ (b + k) % 4096) →
      (m.writeBytes a data).writeBytes b other = (m.writeBytes b other).writeBytes a data) ∧
    ((∀ count, m.readBytes (a % 4096) count = m.readBytes a count) ∧
      (∀ data, m.writeBytes (a % 4096) data = m.writeBytes a data) ∧
      (∀ width, m.readNumber width (a % 4096) = m.readNumber width a) ∧
      ∀ width n, m.writeNumber width (a % 4096) n = m.writeNumber width a n) ∧
    (∀ width ≤ 4096, ∀ n < 256 ^ width, (m.writeNumber width a n).readNumber width a = n) ∧
    (∀ c : Fin 4096, a % 4096 = c.val → m.readNumber 1 a = (m.cells.get c).toNat) ∧
    m.readNumber 2 a = 256 * m.readNumber 1 a + m.readNumber 1 ((a + 1) % 4096) ∧
    m.readNumber 4 a = 65536 * m.readNumber 2 a + m.readNumber 2 ((a + 2) % 4096) ∧
    (m.word a).toNat = m.readNumber 2 a ∧
    ∀ (width n : Nat) (c : Fin 4096), (∀ k < width, (a + k) % 4096 ≠ c.val) →
      (m.writeNumber width a n).cells.get c = m.cells.get c := by
  have hcell : ∀ c : Fin 4096, wrap c.val = c.val := fun c => wrap_of_lt c.isLt
  have hsame : wrap (a % 4096) = wrap a := wrap_wrap a
  have hkeeps : ∀ (data : List UInt8) (c : Fin 4096),
      (∀ o < data.length, (a + o) % 4096 ≠ c.val) →
      (m.writeBytes a data).cells.get c = m.cells.get c := by
    intro data c h
    rw [← read_val, ← read_val]
    refine read_writeBytes_of_ne fun o ho => ?_
    rw [hcell]
    exact h o ho
  refine ⟨fun data c => ⟨?_, hkeeps data c⟩, ?_, fun _ => readBytes_writeBytes,
    fun _ _ _ => writeBytes_comm, ⟨readBytes_congr hsame, fun _ => writeBytes_congr hsame,
      readNumber_congr hsame, writeNumber_congr hsame⟩,
    fun _ hw _ hn => readNumber_writeNumber hw hn, ?_, readNumber_add m a 1 1,
    readNumber_add m a 2 2, toNat_word m a, ?_⟩
  · intro o ho hc hlast
    rw [← read_val]
    refine read_writeBytes_of_last ho ?_ fun k hk hlen => ?_
    · rw [hcell]
      exact hc
    · rw [hcell]
      exact hlast k hk hlen
  · intro count
    refine ⟨length_readBytes m a count, ?_⟩
    intro o ho c hc
    have hread : m.read (a + o) = m.cells.get c := by
      rw [← read_wrap, ← read_val]
      exact congrArg m.read hc
    rw [readBytes, List.getElem?_map, List.getElem?_range ho, Option.map_some, hread]
  · intro c hc
    rw [readNumber_one, ← read_wrap, ← read_val]
    exact congrArg (fun k => (m.read k).toNat) hc
  · intro width n c h
    apply hkeeps
    rwa [length_bigEndianBytes]

/-- Of 4097 bytes the last falls on the cell of the first and stays there. A word at the last
address has its second byte at the first address. -/
theorem accesses_wrap_around_the_end :
    let row : List UInt8 := List.replicate 4096 1 ++ [2]
    let m := fresh.writeNumber 2 0xfff 0xabcd
    (fresh.writeBytes 5 row).cells.get ⟨5, by decide⟩ = 2 ∧ m.readNumber 2 0xfff = 0xabcd ∧
      m.readNumber 1 0 = 0xcd ∧ m.cells.get ⟨1, by decide⟩ = fresh.cells.get ⟨1, by decide⟩ := by
  intro row m
  have hfront : (List.replicate 4096 (1 : UInt8)).length = 4096 := List.length_replicate
  have hlength : row.length = 4097 := by
    rw [List.length_append, hfront, List.length_singleton]
  obtain ⟨hrow, -⟩ := accesses_wrap_around fresh 5
  obtain ⟨-, -, -, -, -, hnumber, -, -, -, -, hkept⟩ := accesses_wrap_around fresh 0xfff
  obtain ⟨-, -, -, -, -, -, -, hword, -⟩ := accesses_wrap_around m 0xfff
  have hback : m.readNumber 2 0xfff = 0xabcd := hnumber 2 (by decide) 0xabcd (by decide)
  refine ⟨?_, hback, ?_, hkept 2 0xabcd ⟨1, by decide⟩ (by decide)⟩
  · rw [(hrow row ⟨5, by decide⟩).1 4096 (by omega) (by decide) (by omega)]
    exact List.getElem_concat_length hfront.symm (by rw [hlength]; decide)
  · have hlow : m.readNumber 1 0 < 256 := by
      rw [readNumber_one]
      exact (m.read 0).toNat_lt
    rw [hback] at hword
    change 0xabcd = 256 * m.readNumber 1 0xfff + m.readNumber 1 0 at hword
    omega

end Memory

end Chip8
