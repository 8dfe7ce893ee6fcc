import Chip8.Machine.Operation
import Chip8.Proofs.Machine.Tick
import Mathlib.Data.List.Induction

/-! The operations of a machine one by one and in a row, and what holds of every machine that
they lead to. -/
namespace Chip8

namespace Machine

variable {m : Machine}

theorem setKey_of_lt {key : Nat} (h : key < 16) (down : Bool) :
    m.setKey key down =
      .ok { m with keypad := (m.keypad.set ⟨key, h⟩ down).2 } (m.keypad.set ⟨key, h⟩ down).1 := by
  simp [setKey, Keypad.setKey, h]

theorem setKey_of_le {key : Nat} (h : 16 ≤ key) (down : Bool) :
    m.setKey key down = .fail m (.noSuchKey key) := by
  simp [setKey, Keypad.setKey, Nat.not_lt.mpr h]

theorem setV_of_lt {register : Nat} (h : register < 16) (b : UInt8) :
    m.setV register b = .ok (m.setRegister ⟨register, h⟩ b) () := by
  simp [setV, h]

theorem setV_of_le {register : Nat} (h : 16 ≤ register) (b : UInt8) :
    m.setV register b = .fail m (.noSuchRegister register) := by
  simp [setV, Nat.not_lt.mpr h]

theorem load_of_le {program : List UInt8} (h : program.length ≤ Region.program.size) :
    m.load program =
      ⟨{ m with
          memory := (m.memory.clearRegion .program).writeBytes Region.program.start program
          program := program },
        .ok (), #[.loaded program.length]⟩ := by
  simp [load, Memory.loadRegion, Nat.not_lt.mpr h]

theorem load_of_lt {program : List UInt8} (h : Region.program.size < program.length) :
    m.load program = .fail m (.tooLarge program.length .program) := by
  simp [load, h]

theorem machine_setKey (m : Machine) (key : Nat) (down : Bool) :
    (m.setKey key down).machine = { m with keypad := (m.setKey key down).machine.keypad } := by
  rcases Nat.lt_or_ge key 16 with hk | hk
  · rw [setKey_of_lt hk]
    rfl
  · rw [setKey_of_le hk]
    rfl

theorem machine_setV (m : Machine) (register : Nat) (b : UInt8) :
    (m.setV register b).machine = { m with v := (m.setV register b).machine.v } := by
  rcases Nat.lt_or_ge register 16 with hr | hr
  · rw [setV_of_lt hr]
    rfl
  · rw [setV_of_le hr]
    rfl

theorem machine_load (m : Machine) (program : List UInt8) :
    (m.load program).machine =
      { m with
        memory := (m.load program).machine.memory
        program := (m.load program).machine.program } := by
  rcases Nat.lt_or_ge Region.program.size program.length with hp | hp
  · rw [load_of_lt hp]
    rfl
  · rw [load_of_le hp]

def unpaused (m : Machine) : Machine := { m with flags.pause := false }

theorem unpaused_of_pause (h : m.flags.pause = false) : m.unpaused = m := by
  unfold unpaused
  rw [← h]

end Machine

namespace Operation

@[simp] theorem machine_answer {α : Type} (f : α → Answer) (s : Step α) :
    (answer f s).machine = s.machine := rfl

@[simp] theorem result_answer {α : Type} (f : α → Answer) (s : Step α) :
    (answer f s).result = s.result.map f := rfl

def answers (m : Machine) : List Operation → List (Except Fault Answer)
  | [] => []
  | op :: ops => (op.apply m).result :: answers (op.apply m).machine ops

/-- A machine is made to act by a tick when it is not paused, and by a single step at any time. -/
def Acts (op : Operation) (m : Machine) : Prop :=
  op = .singlestep ∨ op = .tick ∧ m.flags.pause = false

instance (op : Operation) (m : Machine) : Decidable (op.Acts m) :=
  inferInstanceAs (Decidable (_ ∨ _))

/-- Both kinds of acting are one tick. They differ only in the pause that comes after it. -/
theorem machine_of_acts {op : Operation} {m : Machine} (h : op.Acts m) :
    (op.apply m).machine =
      { m.unpaused.tick.machine with
        flags.pause := decide (op = .singlestep) || m.unpaused.tick.machine.flags.pause } := by
  rcases h with rfl | ⟨rfl, hp⟩
  · rfl
  · rw [Machine.unpaused_of_pause hp]
    rfl

theorem result_of_acts {op : Operation} {m : Machine} (h : op.Acts m) :
    (op.apply m).result = m.unpaused.tick.result.map fun _ => .done := by
  rcases h with rfl | ⟨rfl, hp⟩
  · rfl
  · rw [Machine.unpaused_of_pause hp]
    rfl

theorem run_append (m : Machine) (ops later : List Operation) :
    run m (ops ++ later) = run (run m ops) later :=
  List.foldl_append

theorem run_concat (m : Machine) (ops : List Operation) (op : Operation) :
    run m (ops ++ [op]) = (op.apply (run m ops)).machine :=
  run_append m ops [op]

end Operation

/-- What holds of a machine just switched on, and is kept by every operation, holds of every
machine that can be reached. -/
theorem Machine.Reachable.induction {P : Machine → Prop} (hb : ∀ random, P (.boot {} random))
    (hs : ∀ m op, P m → P (Operation.apply m op).machine) {m : Machine} (h : m.Reachable) : P m := by
  obtain ⟨random, ops, rfl⟩ := h
  induction ops using List.reverseRecOn with
  | nil => exact hb random
  | append_singleton ops op ih =>
    rw [Operation.run_concat]
    exact hs _ op ih

end Chip8
