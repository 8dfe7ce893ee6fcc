import Chip8.Proofs.Machine.Breakpoints
import Chip8.Proofs.Machine.Operation

/-! The bounds that every machine keeps, whatever is done to it. -/
namespace Chip8

namespace Machine

/-- The bounds that types do not give. -/
structure Bounded (m : Machine) : Prop where
  depth : m.stack.length ≤ stackDepth
  program : m.program.length ≤ Region.program.size
  breakpoints : m.breakpoints.Nodup

namespace Bounded

variable {m : Machine}

theorem boot (flags : Flags) (random : Keystream) : (Machine.boot flags random).Bounded where
  depth := Nat.zero_le _
  program := Nat.zero_le _
  breakpoints := List.nodup_nil

theorem tick (h : m.Bounded) : m.tick.machine.Bounded where
  depth := by
    have hd := h.depth
    rcases (ticksTo_tick m).stack with hs | ⟨hr, hs⟩ | ⟨-, -, hs⟩
    · rw [hs]
      exact hd
    · rw [hs]
      exact hr
    · rw [hs, List.length_cons] at hd
      omega
  program := by
    rw [(ticksTo_tick m).program]
    exact h.program
  breakpoints := by
    rw [(ticksTo_tick m).breakpoints]
    exact h.breakpoints

theorem afterTicks (h : m.Bounded) (k : Nat) : (m.afterTicks k).Bounded := by
  induction k with
  | zero => exact h
  | succ k ih => exact ih.tick

theorem singlestep (h : m.Bounded) : m.singlestep.machine.Bounded := by
  have hm : Bounded { m with flags.pause := false } := ⟨h.depth, h.program, h.breakpoints⟩
  exact ⟨hm.tick.depth, hm.tick.program, hm.tick.breakpoints⟩

theorem multistep (h : m.Bounded) (n : Nat) : (m.multistep n).machine.Bounded := by
  obtain ⟨k, -, hk⟩ := exists_afterTicks_eq_multistep m n
  rw [hk]
  exact h.afterTicks k

/-- A program that does not fit is not remembered. -/
theorem load (h : m.Bounded) (program : List UInt8) : (m.load program).machine.Bounded := by
  rcases Nat.lt_or_ge Region.program.size program.length with hp | hp
  · rw [load_of_lt hp]
    exact h
  · rw [load_of_le hp]
    exact ⟨h.depth, hp, h.breakpoints⟩

theorem apply (h : m.Bounded) (op : Operation) : (op.apply m).machine.Bounded := by
  cases op with
  | tick => exact h.tick
  | singlestep => exact h.singlestep
  | multistep n => exact h.multistep n
  | tickTimers => exact ⟨h.depth, h.program, h.breakpoints⟩
  | setKey key down =>
    rw [Operation.apply, Operation.machine_answer, machine_setKey]
    exact ⟨h.depth, h.program, h.breakpoints⟩
  | setV register b =>
    rw [Operation.apply, Operation.machine_answer, machine_setV]
    exact ⟨h.depth, h.program, h.breakpoints⟩
  | load program => exact h.load program
  | reset => exact ⟨Nat.zero_le _, h.program, h.breakpoints⟩
  | setBreak a =>
    have hb := nodup_setBreak a h.breakpoints
    rw [Operation.apply, machine_ok, setBreak_eq]
    exact ⟨h.depth, h.program, hb⟩
  | unsetBreak a => exact ⟨h.depth, h.program, nodup_unsetBreak a h.breakpoints⟩
  | reseed seed => exact ⟨h.depth, h.program, h.breakpoints⟩
  | setFlags flags => exact ⟨h.depth, h.program, h.breakpoints⟩

end Bounded

theorem Reachable.bounded {m : Machine} (h : m.Reachable) : m.Bounded :=
  h.induction (Bounded.boot {}) fun _ op hm => hm.apply op

end Machine

end Chip8
