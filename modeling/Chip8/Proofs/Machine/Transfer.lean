import Chip8.Proofs.Machine.Effects
import Chip8.Proofs.Memory.Wrapping

/-! Registers that go to memory and come back. With `I` moving on, dumps of registers follow each
other in memory like the entries of a tape, which may run over the end of memory. -/
namespace Chip8

namespace Registers

theorem getElem?_upTo (v : Registers) {x z : Register} (h : z.val ≤ x.val) :
    (v.upTo x)[z.val]? = some (v.get z) := by
  rw [upTo, toList, List.getElem?_take_of_lt (Nat.lt_succ_of_le h), Vector.getElem?_toList,
    Vector.getElem?_eq_getElem z.isLt]
  rfl

/-- Registers that are loaded from memory have the bytes from an address on, and those that are not
stay as they are. -/
theorem get_load_readBytes (v : Registers) (cells : Memory) (a count : Nat) (z : Register) :
    (v.load (cells.readBytes a count)).get z =
      if z.val < count then cells.read ((a + z.val) % 4096) else v.get z := by
  have hread : cells.read ((a + z.val) % 4096) = cells.read (a + z.val) :=
    Memory.read_wrap cells (a + z.val)
  rw [get_load, hread]
  by_cases hz : z.val < count
  · rw [if_pos hz, List.getD_eq_getElem _ _ (by rwa [Memory.length_readBytes])]
    simp [Memory.readBytes]
  · rw [if_neg hz, List.getD_eq_default _ _ (by rw [Memory.length_readBytes]; omega)]

end Registers

/-- The memories agree in all cells but the `count` cells from `a` on. -/
def Memory.SameOutside (a count : Nat) (cells cells' : Memory) : Prop :=
  ∀ c < 4096, (∀ o < count, (a + o) % 4096 ≠ c) → cells'.read c = cells.read c

theorem Memory.sameOutside_writeBytes (cells : Memory) (a : Nat) (data : List UInt8) :
    SameOutside a data.length cells (cells.writeBytes a data) := by
  intro c hc h
  refine read_writeBytes_of_ne fun o ho => ?_
  rw [wrap_of_lt hc]
  exact h o ho

/-- Registers that are stored as far as `vX`, and those that stand there when they are fetched. -/
structure Dump where
  x : Register
  stored : Registers
  found : Registers
  deriving DecidableEq

namespace Dump

def size (d : Dump) : Nat := d.x.val + 1

def bytes (d : Dump) : List UInt8 := d.stored.upTo d.x

def total (dumps : List Dump) : Nat := (dumps.map size).sum

/-- The registers `v` are those that were stored as far as `vX`, and those that stood there above
it. -/
def Restores (d : Dump) (v : Registers) : Prop :=
  ∀ z : Register, v.get z = if z.val ≤ d.x.val then d.stored.get z else d.found.get z

/-- The dumps follow each other in memory from `a` on. -/
def LaidOut (cells : Memory) : Nat → List Dump → Prop
  | _, [] => True
  | a, d :: rest =>
    (∀ z : Register, z.val ≤ d.x.val → cells.read ((a + z.val) % 4096) = d.stored.get z) ∧
      LaidOut cells (a + d.size) rest

theorem length_bytes (d : Dump) : d.bytes.length = d.size := Registers.length_upTo d.stored d.x

theorem total_cons (d : Dump) (rest : List Dump) : total (d :: rest) = d.size + total rest := rfl

theorem length_flatMap_bytes (dumps : List Dump) : (dumps.flatMap bytes).length = total dumps := by
  rw [List.length_flatMap]
  exact congrArg List.sum (List.map_congr_left fun d _ => d.length_bytes)

variable {cells : Memory} {a b : Nat} {dumps : List Dump}

theorem laidOut_congr (h : Memory.wrap a = Memory.wrap b) :
    LaidOut cells a dumps ↔ LaidOut cells b dumps := by
  induction dumps generalizing a b with
  | nil => rfl
  | cons d rest ih =>
    have hz : ∀ z : Register, (a + z.val) % 4096 = (b + z.val) % 4096 :=
      fun z => Memory.wrap_add_congr h z.val
    simp only [LaidOut, hz, ih (Memory.wrap_add_congr h d.size)]

theorem laidOut_of_read
    (h : ∀ o < total dumps, (dumps.flatMap bytes)[o]? = some (cells.read (a + o))) :
    LaidOut cells a dumps := by
  induction dumps generalizing a with
  | nil => trivial
  | cons d rest ih =>
    rw [List.flatMap_cons, total_cons] at h
    constructor
    · intro z hz
      have hsize : z.val < d.size := Nat.lt_succ_of_le hz
      have hread := h z.val (by omega)
      rw [List.getElem?_append_left (by rwa [length_bytes]), bytes,
        Registers.getElem?_upTo d.stored hz] at hread
      exact (Memory.read_wrap cells (a + z.val)).trans (Option.some.inj hread).symm
    · apply ih
      intro o ho
      have hread := h (d.size + o) (by omega)
      rw [List.getElem?_append_right (by rw [length_bytes]; omega), length_bytes,
        Nat.add_sub_cancel_left] at hread
      rw [hread, Nat.add_assoc]

/-- At most 4096 bytes that are written in a row leave their dumps one after the other. -/
theorem laidOut_writeBytes (h : total dumps ≤ 4096) :
    LaidOut (cells.writeBytes a (dumps.flatMap bytes)) a dumps := by
  have hlength := length_flatMap_bytes dumps
  apply laidOut_of_read
  intro o ho
  rw [Memory.read_writeBytes_add (by omega) (by omega)]
  exact List.getElem?_eq_getElem (by omega)

end Dump

namespace Machine

variable {m : Machine}

/-- How far `I` moves when the registers up to `vX` are stored or fetched. -/
def stride (m : Machine) (x : Register) : Nat := if m.flags.dialect.dmaInc then x.val + 1 else 0

theorem toNat_passIndex (m : Machine) (x : Register) :
    (m.passIndex x).i.toNat = (m.i.toNat + m.stride x) % 4096 := by
  have hi := m.i.isLt
  unfold passIndex stride
  split
  · rw [BitVec.toNat_add, BitVec.toNat_ofNat]
    omega
  · omega

theorem execute_store (m : Machine) (x : Register) :
    ∃ n, m.execute (.store x) = .ok n ∧
      n.memory = m.memory.writeBytes m.i.toNat (m.v.upTo x) ∧
      n.i.toNat = (m.i.toNat + m.stride x) % 4096 ∧ n.flags = m.flags := by
  refine ⟨_, rfl, ?_, toNat_passIndex _ x, ?_⟩
  · rw [passIndex_eq]
  · rw [passIndex_eq]
    rfl

theorem execute_fetch (m : Machine) (x : Register) :
    ∃ n, m.execute (.fetch x) = .ok n ∧ n.memory = m.memory ∧
      n.v = m.v.load (m.memory.readBytes m.i.toNat (x.val + 1)) ∧
      n.i.toNat = (m.i.toNat + m.stride x) % 4096 ∧ n.flags = m.flags := by
  refine ⟨_, rfl, ?_, ?_, toNat_passIndex _ x, ?_⟩
  · rw [passIndex_eq]
    rfl
  · rw [passIndex_eq]
  · rw [passIndex_eq]
    rfl

theorem index_eq_of_stride {n : Machine} {x : Register} (hd : m.flags.dialect.dmaInc = false)
    (hi : n.i.toNat = (m.i.toNat + m.stride x) % 4096) : n.i = m.i := by
  have hstride : m.stride x = 0 := if_neg (by simp [hd])
  apply BitVec.eq_of_toNat_eq
  rw [hi, hstride]
  exact Nat.mod_eq_of_lt m.i.isLt

/-- The dumps lie in the memory of `n` from the index of `m` on, and all else is there as it is in
`m`. -/
structure Holds (m n : Machine) (dumps : List Dump) : Prop where
  laidOut : Dump.LaidOut n.memory m.i.toNat dumps
  same : Memory.SameOutside m.i.toNat (Dump.total dumps) m.memory n.memory

theorem holds_of_writeBytes {n : Machine} {dumps : List Dump} (h : Dump.total dumps ≤ 4096)
    (hmemory : n.memory = m.memory.writeBytes m.i.toNat (dumps.flatMap Dump.bytes)) :
    Holds m n dumps := by
  have hsame := Memory.sameOutside_writeBytes m.memory m.i.toNat (dumps.flatMap Dump.bytes)
  rw [Dump.length_flatMap_bytes, ← hmemory] at hsame
  refine ⟨?_, hsame⟩
  rw [hmemory]
  exact Dump.laidOut_writeBytes h

theorem holds_of_store {n : Machine} {d : Dump}
    (hmemory : n.memory = m.memory.writeBytes m.i.toNat d.bytes) : Holds m n [d] := by
  have htotal : Dump.total [d] = d.x.val + 1 := rfl
  have hx := d.x.isLt
  apply holds_of_writeBytes
  · omega
  · rw [hmemory, List.flatMap_singleton]

def storeAll (m : Machine) : List Dump → Except Fault Machine
  | [] => .ok m
  | d :: rest =>
    match { m with v := d.stored }.execute (.store d.x) with
    | .ok n => n.storeAll rest
    | .error f => .error f

/-- Fetches the dumps one after the other, and tells what registers each of them left. -/
def fetchAll (m : Machine) : List Dump → Except Fault (List Registers × Machine)
  | [] => .ok ([], m)
  | d :: rest =>
    match { m with v := d.found }.execute (.fetch d.x) with
    | .ok n =>
      match n.fetchAll rest with
      | .ok (files, k) => .ok (n.v :: files, k)
      | .error f => .error f
    | .error f => .error f

/-- With `I` moving on, dumps are written as one row of bytes. -/
theorem storeAll_eq (hd : m.flags.dialect.dmaInc = true) (dumps : List Dump) :
    ∃ n, m.storeAll dumps = .ok n ∧
      n.memory = m.memory.writeBytes m.i.toNat (dumps.flatMap Dump.bytes) ∧
      n.i.toNat = (m.i.toNat + Dump.total dumps) % 4096 ∧ n.flags = m.flags := by
  induction dumps generalizing m with
  | nil => exact ⟨m, rfl, rfl, (Nat.mod_eq_of_lt m.i.isLt).symm, rfl⟩
  | cons d rest ih =>
    obtain ⟨k, hk, hmemory, hi, hflags⟩ := execute_store { m with v := d.stored } d.x
    have hstride : stride { m with v := d.stored } d.x = d.size := if_pos hd
    rw [hstride] at hi
    obtain ⟨n, hn, hmemory', hi', hflags'⟩ := ih (hflags ▸ hd)
    have hwrap : Memory.wrap k.i.toNat = Memory.wrap (m.i.toNat + d.size) := by
      rw [hi]
      exact Memory.wrap_wrap (m.i.toNat + d.size)
    refine ⟨n, ?_, ?_, ?_, hflags'.trans hflags⟩
    · rw [storeAll, hk]
      exact hn
    · rw [hmemory', hmemory, Memory.writeBytes_congr hwrap, List.flatMap_cons,
        Memory.writeBytes_append, d.length_bytes]
      rfl
    · rw [hi', hi, Dump.total_cons]
      dsimp only
      omega

/-- A dump that lies in memory at `I` is restored by fetching it. -/
theorem restores_of_fetch {d : Dump} {n : Machine}
    (hlaid : ∀ z : Register, z.val ≤ d.x.val →
      m.memory.read ((m.i.toNat + z.val) % 4096) = d.stored.get z)
    (hv : n.v = d.found.load (m.memory.readBytes m.i.toNat (d.x.val + 1))) :
    d.Restores n.v := by
  intro z
  rw [hv, Registers.get_load_readBytes]
  by_cases hz : z.val ≤ d.x.val
  · rw [if_pos (Nat.lt_succ_of_le hz), if_pos hz, hlaid z hz]
  · rw [if_neg (by omega), if_neg hz]

/-- With `I` moving on, dumps that follow each other in memory from `I` on are all restored. -/
theorem fetchAll_eq (hd : m.flags.dialect.dmaInc = true) {dumps : List Dump}
    (hlaid : Dump.LaidOut m.memory m.i.toNat dumps) :
    ∃ files n, m.fetchAll dumps = .ok (files, n) ∧ dumps.Forall₂ Dump.Restores files ∧
      n.i.toNat = (m.i.toNat + Dump.total dumps) % 4096 := by
  induction dumps generalizing m with
  | nil => exact ⟨[], m, rfl, .nil, (Nat.mod_eq_of_lt m.i.isLt).symm⟩
  | cons d rest ih =>
    obtain ⟨k, hk, hmemory, hv, hi, hflags⟩ := execute_fetch { m with v := d.found } d.x
    have hstride : stride { m with v := d.found } d.x = d.size := if_pos hd
    rw [hstride] at hi
    have hwrap : Memory.wrap k.i.toNat = Memory.wrap (m.i.toNat + d.size) := by
      rw [hi]
      exact Memory.wrap_wrap (m.i.toNat + d.size)
    have hrest : Dump.LaidOut k.memory k.i.toNat rest := by
      rw [hmemory, Dump.laidOut_congr hwrap]
      exact hlaid.2
    obtain ⟨files, n, hn, hfiles, hi'⟩ := ih (hflags ▸ hd) hrest
    refine ⟨k.v :: files, n, ?_, .cons (restores_of_fetch hlaid.1 hv) hfiles, ?_⟩
    · rw [fetchAll, hk]
      dsimp only
      rw [hn]
    · rw [hi', hi, Dump.total_cons]
      dsimp only
      omega

theorem toNat_digits (b : UInt8) :
    ∃ d₀ d₁ d₂ : UInt8, digits b = [d₀, d₁, d₂] ∧ d₀.toNat ≤ 9 ∧ d₁.toNat ≤ 9 ∧ d₂.toNat ≤ 9 ∧
      100 * d₀.toNat + 10 * d₁.toNat + d₂.toNat = b.toNat := by
  have hb := b.toNat_lt
  refine ⟨_, _, _, rfl, ?_⟩
  simp only [UInt8.toNat_div, UInt8.toNat_mod, UInt8.reduceToNat]
  omega

/-- The decimal digits of a byte are written to the three cells from `I` on, and to no others. -/
theorem execute_decimalDigits (m : Machine) (x : Register) :
    ∃ n, ∃ d₀ d₁ d₂ : UInt8, m.execute (.decimalDigits x) = .ok n ∧
      (d₀.toNat ≤ 9 ∧ d₁.toNat ≤ 9 ∧ d₂.toNat ≤ 9) ∧
      100 * d₀.toNat + 10 * d₁.toNat + d₂.toNat = (m.v.get x).toNat ∧
      (∀ o (ho : o < 3), n.memory.read ((m.i.toNat + o) % 4096) = [d₀, d₁, d₂].get ⟨o, ho⟩) ∧
      Memory.SameOutside m.i.toNat 3 m.memory n.memory ∧ n.i = m.i := by
  obtain ⟨d₀, d₁, d₂, hdigits, h₀, h₁, h₂, hsum⟩ := toNat_digits (m.v.get x)
  refine ⟨_, d₀, d₁, d₂, rfl, ⟨h₀, h₁, h₂⟩, hsum, ?_, ?_, rfl⟩
  · intro o ho
    dsimp only
    rw [hdigits]
    exact (Memory.read_wrap _ _).trans (Memory.read_writeBytes_add (by simp) ho)
  · dsimp only
    rw [hdigits]
    exact Memory.sameOutside_writeBytes m.memory m.i.toNat [d₀, d₁, d₂]

/-- Dumps of at most 4096 bytes together follow each other from `I` on if the dialect moves it,
change no other cell, and are fetched again in turn. Decimal digits are fetched as they were stored.
-/
theorem dumps_stream_out_and_back (m : Machine) :
    (m.flags.dialect.dmaInc = true → ∀ dumps : List Dump, Dump.total dumps ≤ 4096 →
      ∃ n, m.storeAll dumps = .ok n ∧
        n.i.toNat = (m.i.toNat + Dump.total dumps) % 4096 ∧ Holds m n dumps ∧
        ∃ files k, { n with i := m.i }.fetchAll dumps = .ok (files, k) ∧
          dumps.Forall₂ Dump.Restores files ∧ k.i = n.i) ∧
    (m.flags.dialect.dmaInc = false →
      (∀ x, ∃ n, m.execute (.fetch x) = .ok n ∧ n.i = m.i) ∧
      ∀ d : Dump, ∃ n, { m with v := d.stored }.execute (.store d.x) = .ok n ∧ n.i = m.i ∧
        Holds m n [d] ∧
        ∃ k, { n with v := d.found }.execute (.fetch d.x) = .ok k ∧ d.Restores k.v ∧
          k.i = m.i) ∧
    ∀ (x : Register) (found : Registers), ∃ n, ∃ d₀ d₁ d₂ : UInt8,
      m.execute (.decimalDigits x) = .ok n ∧
      (d₀.toNat ≤ 9 ∧ d₁.toNat ≤ 9 ∧ d₂.toNat ≤ 9) ∧
      100 * d₀.toNat + 10 * d₁.toNat + d₂.toNat = (m.v.get x).toNat ∧
      n.memory.read (m.i.toNat % 4096) = d₀ ∧ n.memory.read ((m.i.toNat + 1) % 4096) = d₁ ∧
      n.memory.read ((m.i.toNat + 2) % 4096) = d₂ ∧
      Memory.SameOutside m.i.toNat 3 m.memory n.memory ∧
      ∃ k, { n with v := found }.execute (.fetch ⟨2, by decide⟩) = .ok k ∧
        k.v.get v0 = d₀ ∧ k.v.get ⟨1, by decide⟩ = d₁ ∧ k.v.get ⟨2, by decide⟩ = d₂ ∧
        ∀ z : Register, 2 < z.val → k.v.get z = found.get z := by
  refine ⟨?_, ?_, ?_⟩
  · intro hd dumps htotal
    obtain ⟨n, hn, hmemory, hi, hflags⟩ := storeAll_eq hd dumps
    have hholds := holds_of_writeBytes htotal hmemory
    have hd' : { n with i := m.i }.flags.dialect.dmaInc = true := hflags ▸ hd
    obtain ⟨files, k, hk, hfiles, hi'⟩ := fetchAll_eq hd' hholds.laidOut
    exact ⟨n, hn, hi, hholds, files, k, hk, hfiles, BitVec.eq_of_toNat_eq (hi'.trans hi.symm)⟩
  · intro hd
    constructor
    · intro x
      obtain ⟨n, hn, -, -, hi, -⟩ := execute_fetch m x
      exact ⟨n, hn, index_eq_of_stride hd hi⟩
    · intro d
      obtain ⟨n, hn, hmemory, hi, hflags⟩ := execute_store { m with v := d.stored } d.x
      have hni : n.i = m.i := index_eq_of_stride hd hi
      have hholds : Holds m n [d] := holds_of_store hmemory
      obtain ⟨k, hk, -, hv, hi', -⟩ := execute_fetch { n with v := d.found } d.x
      have hd' : { n with v := d.found }.flags.dialect.dmaInc = false := hflags ▸ hd
      have hki : k.i = n.i := index_eq_of_stride hd' hi'
      refine ⟨n, hn, hni, hholds, k, hk, restores_of_fetch ?_ hv, hki.trans hni⟩
      rw [hni]
      exact hholds.laidOut.1
  · intro x found
    obtain ⟨n, d₀, d₁, d₂, hn, hdigit, hsum, hread, hsame, hi⟩ := execute_decimalDigits m x
    obtain ⟨k, hk, -, hv, -, -⟩ := execute_fetch { n with v := found } ⟨2, by decide⟩
    have hget : ∀ z : Register, k.v.get z =
        if z.val < 3 then n.memory.read ((m.i.toNat + z.val) % 4096) else found.get z := by
      intro z
      rw [hv, Registers.get_load_readBytes, ← hi]
    refine ⟨n, d₀, d₁, d₂, hn, hdigit, hsum, hread 0 (by decide), hread 1 (by decide),
      hread 2 (by decide), hsame, k, hk, ?_, ?_, ?_, ?_⟩
    · exact (hget v0).trans (hread 0 (by decide))
    · exact (hget ⟨1, by decide⟩).trans (hread 1 (by decide))
    · exact (hget ⟨2, by decide⟩).trans (hread 2 (by decide))
    · intro z hz
      rw [hget, if_neg (by omega)]

/-- Two dumps from `0xffe` on: the first runs over the end of memory, and the second follows it
there. -/
theorem dumps_stream_over_the_end :
    let m := { boot { dialect.dmaInc := true } (.ofSeed 0) with i := 0xffe }
    let first : Registers := (Registers.zero.set v0 0x11).set ⟨2, by decide⟩ 0x33
    let second : Registers := Registers.zero.set v0 0x44
    let dumps : List Dump := [⟨⟨2, by decide⟩, first, second⟩, ⟨v0, second, first⟩]
    Dump.total dumps ≤ 4096 ∧ ∃ n, m.storeAll dumps = .ok n ∧ n.i.toNat = 2 ∧
      n.memory.read 0 = 0x33 ∧ n.memory.read 1 = 0x44 ∧ n.memory.read 2 = m.memory.read 2 ∧
      ∃ files k, { n with i := 0xffe }.fetchAll dumps = .ok (files, k) ∧
        dumps.Forall₂ Dump.Restores files ∧ k.i = n.i := by
  intro m first second dumps
  have htotal : Dump.total dumps ≤ 4096 := by decide
  obtain ⟨hstream, -, -⟩ := dumps_stream_out_and_back m
  obtain ⟨n, hn, hi, hholds, hback⟩ := hstream rfl dumps htotal
  obtain ⟨hfirst, hsecond, -⟩ := hholds.laidOut
  have hend : (m.i.toNat + Dump.total dumps) % 4096 = 2 := by decide +kernel
  have hlast : (m.i.toNat + 2) % 4096 = 0 := by decide +kernel
  have hnext : (m.i.toNat + 3) % 4096 = 1 := by decide +kernel
  refine ⟨htotal, n, hn, hi.trans hend, ?_, ?_, hholds.same 2 (by decide) (by decide), hback⟩
  · rw [← hlast]
    exact hfirst ⟨2, by decide⟩ (by decide)
  · rw [← hnext]
    exact hsecond v0 (by decide)

end Machine

end Chip8
