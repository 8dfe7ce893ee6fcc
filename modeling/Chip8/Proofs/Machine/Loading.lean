import Chip8.Proofs.Machine.Restart

/-! Programs loaded one after the other. Each takes the place of all that stood there before, while
data laid over a region of memory changes only the bytes it falls on. -/
namespace Chip8

theorem Region.stop_le (r : Region) : r.start + r.size ≤ 4096 := by
  cases r with
  | charset => decide
  | program => decide

namespace Memory

variable {m : Memory} {r : Region} {data : List UInt8} {a : Nat}

theorem loadRegion_of_le (h : data.length ≤ r.size) :
    m.loadRegion r data = (.ok (), m.writeBytes r.start data) := if_neg (Nat.not_lt.mpr h)

theorem loadRegion_of_lt (h : r.size < data.length) :
    m.loadRegion r data = (.error (.tooLarge data.length r), m) := if_pos h

/-- Data that fits in a region replaces just as many bytes at its start. -/
theorem read_writeBytes_start (h : data.length ≤ r.size) (ha : a < 4096) :
    (m.writeBytes r.start data).read a =
      if r.start ≤ a ∧ a < r.start + data.length then data.getD (a - r.start) 0 else m.read a := by
  have hr := r.stop_le
  rw [read_writeBytes (by omega) ha]
  by_cases hs : r.start ≤ a
  · by_cases he : a < r.start + data.length
    · have hin : a - r.start < data.length := by omega
      rw [if_pos hs, if_pos ⟨hs, he⟩, List.getD_eq_getElem _ _ hin, List.getD_eq_getElem _ _ hin]
    · have hout : data.length ≤ a - r.start := by omega
      rw [if_pos hs, if_neg fun hw => he hw.2, List.getD_eq_default _ _ hout]
  · rw [if_neg hs, if_neg fun hw => hs hw.1]

theorem read_clearRegion (m : Memory) (r : Region) (ha : a < 4096) :
    (m.clearRegion r).read a =
      if r.start ≤ a ∧ a < r.start + r.size then 0 else m.read a := by
  have hlength : (List.replicate r.size (0 : UInt8)).length = r.size := List.length_replicate
  have hzero : (List.replicate r.size (0 : UInt8)).getD (a - r.start) 0 = 0 := by
    rw [List.getD_eq_getElem?_getD, List.getElem?_replicate]
    split <;> rfl
  rw [clearRegion, read_writeBytes_start (Nat.le_of_eq hlength) ha, hlength, hzero]

end Memory

namespace Machine

variable {m n after : Machine} {rom : List UInt8}

/-- The second machine is the first one with a program in memory: zeros stand behind it, and all
below it is as it was. -/
structure GivenProgram (m after : Machine) (rom : List UInt8) : Prop where
  keeps : after = { m with memory := after.memory, program := rom }
  below : ∀ a < 0x200, after.memory.read a = m.memory.read a
  image : ∀ i < 3584, after.memory.read (0x200 + i) = rom.getD i 0

/-- What stood in place of the program does not matter. -/
theorem GivenProgram.of_givenProgram {old : List UInt8} (hm : m.GivenProgram n old)
    (hn : n.GivenProgram after rom) : m.GivenProgram after rom where
  keeps := by
    have hkeeps := hn.keeps
    rw [hm.keeps] at hkeeps
    exact hkeeps
  below := by
    intro a ha
    rw [hn.below a ha, hm.below a ha]
  image := hn.image

theorem givenProgram_load (m : Machine) (h : rom.length ≤ 3584) :
    m.GivenProgram (m.load rom).machine rom := by
  have hstart : Region.program.start = 0x200 := rfl
  have hsize : Region.program.size = 3584 := rfl
  rw [load_of_le h]
  refine ⟨rfl, ?_, ?_⟩
  · intro a ha
    rw [Memory.read_writeBytes_start h (by omega), if_neg (by omega),
      Memory.read_clearRegion _ _ (by omega), if_neg (by omega)]
  · intro i hi
    rw [Memory.read_writeBytes_start h (by omega), hstart, Nat.add_sub_cancel_left]
    by_cases hin : i < rom.length
    · rw [if_pos (by omega)]
    · rw [if_neg (by omega), Memory.read_clearRegion _ _ (by omega), if_pos (by omega),
        List.getD_eq_default _ _ (by omega)]

/-- A program is taken exactly if its region takes it, whatever is cleared before it is laid there.
-/
theorem result_load_eq_loadRegion (m : Machine) (memory : Memory) (rom : List UInt8) :
    (m.load rom).result = (memory.loadRegion .program rom).1 := by
  rcases Nat.lt_or_ge Region.program.size rom.length with h | h
  · rw [load_of_lt h, Memory.loadRegion_of_lt h]
    rfl
  · rw [load_of_le h, Memory.loadRegion_of_le h]

end Machine

namespace Operation

theorem result_load (m : Machine) (rom : List UInt8) :
    ((Operation.load rom).apply m).result =
      if rom.length ≤ 3584 then .ok .done else .error (.tooLarge rom.length .program) := by
  rw [apply, result_answer]
  split
  · rename_i h
    rw [Machine.load_of_le h]
    rfl
  · rename_i h
    rw [Machine.load_of_lt (Nat.not_le.mp h)]
    rfl

theorem answers_loads (m : Machine) (roms : List (List UInt8)) :
    answers m (roms.map .load) = roms.map fun rom =>
      if rom.length ≤ 3584 then .ok .done else .error (.tooLarge rom.length .program) := by
  induction roms generalizing m with
  | nil => rfl
  | cons rom roms ih => rw [List.map_cons, answers, result_load, ih, List.map_cons]

/-- One load gives the machine its program, or changes nothing. -/
theorem load_cases (m : Machine) (rom : List UInt8) :
    (loaded? m (.load rom) = some rom ∧
        m.GivenProgram ((Operation.load rom).apply m).machine rom) ∨
      (loaded? m (.load rom) = none ∧ ((Operation.load rom).apply m).machine = m) := by
  rw [apply, machine_answer, loaded?]
  rcases Nat.lt_or_ge 3584 rom.length with h | h
  · refine Or.inr ⟨?_, ?_⟩
    · rw [Machine.load_of_lt h]
      rfl
    · rw [Machine.load_of_lt h]
      rfl
  · refine Or.inl ⟨?_, Machine.givenProgram_load m h⟩
    rw [Machine.load_of_le h]
    rfl

/-- Some loads leave the machine with the last program that fits, or as it was if none does. -/
theorem loads_cases (m : Machine) (roms : List (List UInt8)) :
    (∃ rom, lastLoaded? m (roms.map .load) = some rom ∧
        m.GivenProgram (run m (roms.map .load)) rom) ∨
      (lastLoaded? m (roms.map .load) = none ∧ run m (roms.map .load) = m) := by
  induction roms generalizing m with
  | nil => exact Or.inr ⟨rfl, rfl⟩
  | cons rom roms ih =>
    have hrun : run m ((rom :: roms).map .load) =
        run ((Operation.load rom).apply m).machine (roms.map .load) := rfl
    rw [hrun, List.map_cons, lastLoaded?]
    rcases ih ((Operation.load rom).apply m).machine with ⟨last, hlast, hgiven⟩ | ⟨hnone, hsame⟩
    · refine Or.inl ⟨last, by rw [hlast]; rfl, ?_⟩
      rcases load_cases m rom with ⟨-, hfirst⟩ | ⟨-, hfirst⟩
      · exact hfirst.of_givenProgram hgiven
      · rwa [hfirst] at hgiven ⊢
    · rw [hnone, hsame]
      rcases load_cases m rom with ⟨hfits, hfirst⟩ | ⟨hfails, hfirst⟩
      · exact Or.inl ⟨rom, hfits, hfirst⟩
      · exact Or.inr ⟨hfails, hfirst⟩

end Operation

namespace Machine

/-- The last program that fits stands in memory with zeros behind it, and all else is as it was.
Data laid over a region changes just the bytes it falls on, and none if it is too long. -/
theorem loading_replaces_program (m : Machine) (roms : List (List UInt8)) :
    let loads := roms.map Operation.load
    let after := Operation.run m loads
    Operation.answers m loads = roms.map (fun rom =>
      if rom.length ≤ 3584 then .ok .done else .error (.tooLarge rom.length .program)) ∧
    (∀ rom, Operation.lastLoaded? m loads = some rom →
      after = { m with memory := after.memory, program := rom } ∧
        (∀ i < 3584, after.memory.read (0x200 + i) = if h : i < rom.length then rom[i] else 0) ∧
        ∀ a < 0x200, after.memory.read a = m.memory.read a) ∧
    (Operation.lastLoaded? m loads = none → after = m) ∧
    (∀ (memory : Memory) rom, (after.load rom).result = (memory.loadRegion .program rom).1) ∧
    [Region.charset, Region.program].map (fun r => (r.start, r.size)) =
      [(0x050, 80), (0x200, 3584)] ∧
    ∀ (memory : Memory) (r : Region) (data : List UInt8),
      (r.size < data.length →
        memory.loadRegion r data = (.error (.tooLarge data.length r), memory)) ∧
      (data.length ≤ r.size → ∃ laid, memory.loadRegion r data = (.ok (), laid) ∧
        ∀ a < 4096, laid.read a =
          if h : r.start ≤ a ∧ a < r.start + data.length then data[a - r.start] else
            memory.read a) := by
  intro loads after
  refine ⟨Operation.answers_loads m roms, ?_, ?_, result_load_eq_loadRegion after, rfl, ?_⟩
  · intro rom hrom
    rcases Operation.loads_cases m roms with ⟨last, hlast, hgiven⟩ | ⟨hnone, -⟩
    · have hsame : last = rom := Option.some.inj (hlast.symm.trans hrom)
      subst hsame
      refine ⟨hgiven.keeps, ?_, hgiven.below⟩
      intro i hi
      rw [hgiven.image i hi]
      split
      · rename_i h
        exact List.getD_eq_getElem _ _ h
      · rename_i h
        exact List.getD_eq_default _ _ (Nat.not_lt.mp h)
    · exact absurd (hnone.symm.trans hrom) (by simp)
  · intro hnone
    rcases Operation.loads_cases m roms with ⟨last, hlast, -⟩ | ⟨-, hsame⟩
    · exact absurd (hlast.symm.trans hnone) (by simp)
    · exact hsame
  · intro memory r data
    refine ⟨Memory.loadRegion_of_lt, ?_⟩
    intro h
    refine ⟨_, Memory.loadRegion_of_le h, ?_⟩
    intro a ha
    rw [Memory.read_writeBytes_start h ha]
    split
    · rename_i hin
      exact List.getD_eq_getElem _ _ (by omega)
    · rfl

/-- Of three programs the second is too large, and nothing is left of the longer first one. -/
theorem loading_leaves_no_residue :
    let m := boot {} (.ofSeed 0)
    let loads : List Operation := [[1, 2, 3], List.replicate 3585 9, [4]].map .load
    let after := Operation.run m loads
    Operation.lastLoaded? m loads = some [4] ∧ after.program = [4] ∧
      after.memory.read 0x200 = 4 ∧ after.memory.read 0x201 = 0 := by
  intro m loads after
  have hlast : Operation.lastLoaded? m loads = some [4] := by decide +kernel
  obtain ⟨-, htaken, -⟩ :=
    loading_replaces_program m [[1, 2, 3], List.replicate 3585 9, [4]]
  obtain ⟨hkeeps, himage, -⟩ := htaken [4] hlast
  exact ⟨hlast, congrArg Machine.program hkeeps, himage 0 (by decide), himage 1 (by decide)⟩

end Machine

end Chip8
