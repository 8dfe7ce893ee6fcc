import Chip8.Proofs.Machine.Breakpoints
import Chip8.Proofs.Machine.Flags

/-! A debugger does not disturb the program. Breakpoints, pauses, single steps and the display of
instructions change nothing in what is executed. -/
namespace Chip8

inductive Debugging where
  /-- Clears the pause, then ticks. -/
  | resume
  | singlestep
  | setBreak (a : UInt16)
  | unsetBreak (a : UInt16)
  | toggleDebug
  deriving DecidableEq

namespace Debugging

def ticks : Debugging → Bool
  | .resume | .singlestep => true
  | .setBreak _ | .unsetBreak _ | .toggleDebug => false

def apply (m : Machine) : Debugging → Step Unit
  | .resume => m.unpaused.tick
  | .singlestep => m.singlestep
  | .setBreak a => .ok (m.setBreak a) ()
  | .unsetBreak a => .ok (m.unsetBreak a) ()
  | .toggleDebug => .ok { m with flags := m.flags.toggleDebug } ()

def run (m : Machine) (moves : List Debugging) : Machine :=
  moves.foldl (fun m d => (d.apply m).machine) m

def results (m : Machine) : List Debugging → List (Except Fault Unit)
  | [] => []
  | d :: moves =>
    if d.ticks then (d.apply m).result :: results (d.apply m).machine moves
    else results (d.apply m).machine moves

/-- A stop at a breakpoint counts as success. -/
def forgive : Except Fault Unit → Except Fault Unit
  | .ok () => .ok ()
  | .error f => if f.isBreakpoint then .ok () else .error f

end Debugging

namespace Machine

variable {m : Machine}

/-- The machine without breakpoints and pause, with or without the display of instructions. -/
def bare (m : Machine) (debug : Bool) : Machine :=
  m.under { m.flags with pause := false, debug := debug } []

theorem outcome_bare (m : Machine) (debug : Bool) :
    (m.bare debug).outcome = m.unpaused.outcome.map
      (Option.map (·.under { m.flags with pause := false, debug := debug } [])) := by
  apply outcome_under (m := m.unpaused)
  intro _ f hf
  cases f with
  | debug => exact heeds_of_debugging (Or.inl rfl) _
  | pause | lenient | shift | dmaInc | vfReset | screenWrap => exact absurd rfl hf

/-- Without breakpoints a tick does what it would have done, and does not stop. -/
theorem tick_bare (m : Machine) (debug : Bool) :
    (m.bare debug).tick.machine = m.unpaused.tick.machine.bare debug ∧
      (m.bare debug).tick.result = Debugging.forgive m.unpaused.tick.result := by
  have hb : (m.bare debug).flags.pause = false := rfl
  have hu : m.unpaused.flags.pause = false := rfl
  rw [(tick_eq_settle hb).1, (tick_eq_settle hb).2, (tick_eq_settle hu).1, (tick_eq_settle hu).2,
    outcome_bare]
  cases hm : m.unpaused.outcome with
  | error f =>
    have hf := isBreakpoint_of_outcome hm
    exact ⟨rfl, by simp [Except.map, settle, Step.fail, Debugging.forgive, hf]⟩
  | ok o =>
    cases o with
    | none => exact ⟨rfl, rfl⟩
    | some n =>
      have hf := (sameSetup_of_outcome hm).flags
      constructor
      · simp only [Except.map, Option.map_some, settle, machine_complete, bare, under, hf]
        simp [unpaused]
      · simp only [Except.map, Option.map_some, settle, result_complete, under]
        by_cases hp : addressWord n.pc ∈ n.breakpoints
        · simp [hp, Debugging.forgive, Fault.isBreakpoint]
        · simp [hp, Debugging.forgive]

end Machine

namespace Debugging

/-- A move that ticks is one tick of the bare machine, and any other move is nothing to it. -/
theorem bare_apply (m : Machine) (d : Debugging) (debug : Bool) :
    (d.apply m).machine.bare debug =
      if d.ticks then (m.bare debug).tick.machine else m.bare debug := by
  cases d with
  | resume => exact (Machine.tick_bare m debug).1.symm
  | singlestep => exact (Machine.tick_bare m debug).1.symm
  | setBreak a =>
    rw [apply, Machine.machine_ok, Machine.setBreak_eq]
    rfl
  | unsetBreak a => rfl
  | toggleDebug => rfl

theorem forgive_result_apply {m : Machine} {d : Debugging} (h : d.ticks) (debug : Bool) :
    forgive (d.apply m).result = (m.bare debug).tick.result := by
  cases d with
  | resume => exact (Machine.tick_bare m debug).2.symm
  | singlestep => exact (Machine.tick_bare m debug).2.symm
  | setBreak | unsetBreak | toggleDebug => cases h

theorem bare_run (m : Machine) (moves : List Debugging) (debug : Bool) :
    (run m moves).bare debug = (m.bare debug).afterTicks (moves.countP ticks) := by
  induction moves generalizing m with
  | nil => rfl
  | cons d moves ih =>
    have hd := ih (d.apply m).machine
    rw [bare_apply] at hd
    cases ht : d.ticks with
    | true =>
      rw [ht, if_pos rfl, Machine.afterTicks_succ] at hd
      rw [List.countP_cons_of_pos ht]
      exact hd
    | false =>
      rw [ht, if_neg Bool.false_ne_true] at hd
      rw [List.countP_cons_of_neg (by simp [ht])]
      exact hd

theorem results_forgiven (m : Machine) (moves : List Debugging) (debug : Bool) :
    (results m moves).map forgive =
      (List.range (moves.countP ticks)).map fun k => ((m.bare debug).afterTicks k).tick.result := by
  induction moves generalizing m with
  | nil => rfl
  | cons d moves ih =>
    have hd := ih (d.apply m).machine
    rw [bare_apply] at hd
    rw [results]
    cases ht : d.ticks with
    | true =>
      rw [ht, if_pos rfl] at hd
      rw [if_pos rfl, List.map_cons, hd, forgive_result_apply ht debug, List.countP_cons_of_pos ht,
        List.range_succ_eq_map, List.map_cons, List.map_map]
      refine congrArg _ (List.map_congr_left fun k _ => ?_)
      rw [Machine.afterTicks_succ]
      rfl
    | false =>
      rw [ht, if_neg Bool.false_ne_true] at hd
      rw [if_neg Bool.false_ne_true, List.countP_cons_of_neg (by simp [ht])]
      exact hd

end Debugging

namespace Machine

/-- A machine that is resumed or stepped, with breakpoints and the display of instructions, goes
through the same states as one that just ticks. A stop at a breakpoint counts as success. -/
theorem debugger_transparent (m : Machine) (moves : List Debugging) :
    let plain : Machine := { m with breakpoints := [], flags.pause := false }
    let n := Debugging.run m moves
    let k := moves.countP Debugging.ticks
    plain.afterTicks k =
        { n with
          breakpoints := []
          flags := { n.flags with pause := false, debug := m.flags.debug } } ∧
      (Debugging.results m moves).map Debugging.forgive =
        (List.range k).map (fun j => (plain.afterTicks j).tick.result) ∧
      ∀ any : Machine, any.singlestep.machine.flags.pause = true :=
  ⟨(Debugging.bare_run m moves m.flags.debug).symm,
    Debugging.results_forgiven m moves m.flags.debug, fun _ => rfl⟩

end Machine

end Chip8
