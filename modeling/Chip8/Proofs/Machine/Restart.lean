import Chip8.Proofs.Machine.Agreement
import Chip8.Proofs.Machine.Invariant
import Chip8.Proofs.Memory

/-! A reset makes a machine as good as new. Whatever was done to it before, it goes on as one that
was just switched on and given the last program. -/
namespace Chip8

theorem Machine.program_afterTicks (m : Machine) (k : Nat) :
    (m.afterTicks k).program = m.program := by
  induction k with
  | zero => rfl
  | succ k ih => exact (ticksTo_tick (m.afterTicks k)).program.trans ih

namespace Operation

def loaded? (m : Machine) : Operation → Option (List UInt8)
  | .load program => if (m.load program).result.isOk then some program else none
  | _ => none

/-- The program of the last load that succeeds. -/
def lastLoaded? (m : Machine) : List Operation → Option (List UInt8)
  | [] => none
  | op :: ops => (lastLoaded? (op.apply m).machine ops).or (op.loaded? m)

/-- A machine remembers what is loaded, and nothing else makes it forget. -/
theorem program_apply (m : Machine) (op : Operation) :
    (op.apply m).machine.program = (op.loaded? m).getD m.program := by
  cases op with
  | tick => exact (Machine.ticksTo_tick m).program
  | singlestep => exact (Machine.ticksTo_tick m.unpaused).program
  | multistep n =>
    obtain ⟨k, -, hk⟩ := Machine.exists_afterTicks_eq_multistep m n
    rw [apply, machine_answer, hk, Machine.program_afterTicks]
    rfl
  | setKey key down =>
    rw [apply, machine_answer, Machine.machine_setKey]
    rfl
  | setV register b =>
    rw [apply, machine_answer, Machine.machine_setV]
    rfl
  | load program =>
    rcases Nat.lt_or_ge Region.program.size program.length with hp | hp
    · rw [apply, loaded?, Machine.load_of_lt hp]
      rfl
    · rw [apply, loaded?, Machine.load_of_le hp]
      rfl
  | setBreak a =>
    rw [apply, Machine.machine_ok, Machine.setBreak_eq]
    rfl
  | tickTimers | reset | unsetBreak | reseed | setFlags => rfl

theorem program_run (m : Machine) (ops : List Operation) :
    (run m ops).program = (lastLoaded? m ops).getD m.program := by
  induction ops generalizing m with
  | nil => rfl
  | cons op ops ih =>
    have hr : run m (op :: ops) = run (op.apply m).machine ops := rfl
    rw [hr, ih, program_apply, lastLoaded?]
    cases lastLoaded? (op.apply m).machine ops <;> rfl

/-- Breakpoints set one after the other stand in that order. -/
theorem run_setBreak {m : Machine} {points : List UInt16} (h : (m.breakpoints ++ points).Nodup) :
    run m (points.map .setBreak) = { m with breakpoints := m.breakpoints ++ points } := by
  induction points generalizing m with
  | nil => simp [run]
  | cons a points ih =>
    have ha : a ∉ m.breakpoints := by
      intro hm
      exact (List.nodup_append.mp h).2.2 a hm a (List.mem_cons_self ..) rfl
    have hs : m.setBreak a = { m with breakpoints := m.breakpoints ++ [a] } := by
      rw [Machine.setBreak, if_neg ha]
    have hr : run m ((a :: points).map .setBreak) = run (m.setBreak a) (points.map .setBreak) := rfl
    rw [hr, hs, ih (by simpa using h), List.append_assoc]
    rfl

end Operation

namespace Machine

variable {m : Machine}

/-- Outside the program there are zeros and the font, and behind it there are zeros. -/
theorem read_restarted (h : m.Bounded) {a : Nat} (ha : a < 4096) :
    m.restarted.memory.read a =
      if 0x200 ≤ a then m.program.getD (a - 0x200) 0
      else if 0x050 ≤ a then Font.bytes.getD (a - 0x050) 0
      else 0 := by
  have hp : m.program.length ≤ 3584 := h.program
  have he : entry.toNat = 0x200 := rfl
  have hl : entry.toNat + m.program.length ≤ 4096 := by omega
  rw [restarted, Memory.read_writeBytes hl ha, he]
  split
  · rename_i hs
    rw [Memory.read_fresh_of_le hs ha]
  · exact Memory.read_fresh ha

/-- A machine just switched on, with the flags and breakpoints of another and its program loaded, is
that other one restarted. -/
theorem load_boot (h : m.Bounded) (r : Keystream) :
    ({ boot m.flags r with breakpoints := m.breakpoints }.load m.program).result = .ok () ∧
      m.restarted.Agrees
        ({ boot m.flags r with breakpoints := m.breakpoints }.load m.program).machine := by
  have hm : (boot m.flags r).memory.clearRegion .program = .fresh := Memory.clearRegion_fresh
  rw [load_of_le h.program, hm]
  refine ⟨rfl, agrees_iff.mpr ⟨r, rfl⟩⟩

/-- A reset leaves a machine that agrees with one just switched on that has been given the same
flags, breakpoints and last program, and that does the same from then on but for random numbers. -/
theorem reset_restarts (random other : Keystream) (ops : List Operation) :
    let m := Operation.run (.boot {} random) ops
    let rom := (Operation.lastLoaded? (.boot {} random) ops).getD []
    let booted := Operation.run (.boot {} other) (.setFlags m.flags :: m.breakpoints.map .setBreak)
    let fresh := (booted.load rom).machine
    let again := m.reset.machine
    (booted.load rom).result = .ok () ∧ again.Agrees fresh ∧
      again =
        { boot m.flags m.random with
          memory := again.memory, breakpoints := m.breakpoints, program := rom } ∧
      (∀ a < 4096, again.memory.read a =
        if 0x200 ≤ a then rom.getD (a - 0x200) 0
        else if 0x050 ≤ a then Font.bytes.getD (a - 0x050) 0
        else 0) ∧
      again.reset.machine = again ∧
      ∀ later, (∀ i ∈ Operation.executed again later, ∀ x b, i ≠ .random x b) →
        Operation.answers again later = Operation.answers fresh later ∧
          ∀ earlier, earlier <+: later →
            (Operation.run again earlier).Agrees (Operation.run fresh earlier) := by
  intro m rom booted fresh again
  have hm : m.Bounded := Reachable.bounded ⟨random, ops, rfl⟩
  have hp : m.program = rom := Operation.program_run _ ops
  have hb : booted = { boot m.flags other with breakpoints := m.breakpoints } :=
    Operation.run_setBreak (m := boot m.flags other) hm.breakpoints
  obtain ⟨hload, hagree⟩ := load_boot hm other
  rw [← hb, hp] at hload hagree
  refine ⟨hload, hagree, ?_, ?_, rfl, ?_⟩
  · rw [← hp]
    rfl
  · intro a ha
    rw [← hp]
    exact read_restarted hm ha
  · intro later hl
    have hc : ∀ i ∈ Operation.executed again later, i.isCertain := by
      intro i hi
      cases i
      case random x b => exact absurd rfl (hl _ hi x b)
      all_goals rfl
    refine ⟨(hagree.run hc).2, fun earlier he => (hagree.run fun i hi => hc i ?_).1⟩
    obtain ⟨rest, rfl⟩ := he
    rw [Operation.executed_append]
    exact List.mem_append_left _ hi

/-- A program writes over the font, and a second one is too large to be loaded. -/
theorem reset_restores_font :
    let ops : List Operation :=
      [.load [0x60, 0xff, 0xa0, 0x50, 0xf0, 0x55], .reset, .multistep 3, .setBreak 0x204,
        .load (List.replicate 3585 0)]
    let later : List Operation := [.multistep 5, .singlestep]
    let m := Operation.run (.boot {} (.ofSeed 0)) ops
    let fresh := ((Operation.run (.boot {} (.ofSeed 1))
      (.setFlags m.flags :: m.breakpoints.map .setBreak)).load
        ((Operation.lastLoaded? (.boot {} (.ofSeed 0)) ops).getD [])).machine
    m.memory.read 0x050 = 0xff ∧ m.reset.machine.memory.read 0x050 = 0xf0 ∧
      Operation.executed m.reset.machine later = [.setByte 0 0xff, .setIndex 0x050, .store 0] ∧
      Operation.answers m.reset.machine later = Operation.answers fresh later ∧
      (Operation.run m.reset.machine later).Agrees (Operation.run fresh later) := by
  intro ops later m fresh
  obtain ⟨-, -, -, hmemory, -, hlater⟩ := reset_restarts (.ofSeed 0) (.ofSeed 1) ops
  have hrun : m.memory.read 0x050 = 0xff ∧
      Operation.executed m.reset.machine later = [.setByte 0 0xff, .setIndex 0x050, .store 0] := by
    decide +kernel
  have hcertain : ∀ i ∈ Operation.executed m.reset.machine later, ∀ x b, i ≠ .random x b := by
    rw [hrun.2]
    simp
  obtain ⟨hans, hagree⟩ := hlater later hcertain
  exact ⟨hrun.1, hmemory 0x050 (by decide), hrun.2, hans, hagree later (List.prefix_refl later)⟩

end Machine

end Chip8
