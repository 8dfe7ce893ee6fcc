import Chip8.Machine.Execute

/-! What instructions have in common: which of them fail, what none of them touches, and what
they do to the stack. -/
namespace Chip8.Machine

variable {m n : Machine} {i : Instruction}

theorem passIndex_eq (m : Machine) (x : Register) :
    m.passIndex x = { m with i := (m.passIndex x).i } := by
  unfold passIndex
  split <;> rfl

/-- Only calls and returns can fail: a call on a full stack, a return on an empty one. -/
theorem execute_eq_error_iff {f : Fault} :
    m.execute i = .error f ↔
      (∃ a, i = .call a ∧ stackDepth ≤ m.stack.length ∧
          f = .stackOverflow (addressWord m.pc) stackDepth) ∨
        (i = .ret ∧ m.stack = [] ∧ f = .stackUnderflow (addressWord m.pc)) := by
  cases i
  case ret =>
    cases hs : m.stack with
    | nil => simp [execute, hs, eq_comm]
    | cons a rest => simp [execute, hs]
  case call a =>
    simp only [execute]
    split <;> simp [eq_comm] <;> omega
  all_goals simp [execute]

def stackAfter (m : Machine) : Instruction → List Address
  | .call _ => (m.pc + 2) :: m.stack
  | .ret => m.stack.tail
  | _ => m.stack

/-- The keypad after an instruction. A wait for a key forgets which key went down first. -/
def keypadAfter (m : Machine) : Instruction → Keypad
  | .awaitKey _ => m.keypad.arm
  | _ => m.keypad

def activityAfter (m : Machine) : Instruction → Activity
  | .awaitKey x => .awaitingKey x
  | _ => m.activity

/-- What no instruction touches. -/
structure SameSetup (m n : Machine) : Prop where
  flags : n.flags = m.flags
  cycle : n.cycle = m.cycle
  breakpoints : n.breakpoints = m.breakpoints
  program : n.program = m.program

/-- What is known of `n` when `i` took `m` to it, whichever instruction `i` is. -/
structure Executed (m : Machine) (i : Instruction) (n : Machine) : Prop extends SameSetup m n where
  stack : n.stack = m.stackAfter i
  keypad : n.keypad = m.keypadAfter i
  activity : n.activity = m.activityAfter i

theorem executed_of_ok (h : m.execute i = .ok n) : Executed m i n := by
  cases i
  case ret =>
    cases hs : m.stack with
    | nil => simp [execute, hs] at h
    | cons a rest =>
      simp only [execute, hs, Except.ok.injEq] at h
      subst h
      exact ⟨⟨rfl, rfl, rfl, rfl⟩, by simp [stackAfter, hs], rfl, rfl⟩
  case call a =>
    simp only [execute] at h
    split at h <;> cases h
    exact ⟨⟨rfl, rfl, rfl, rfl⟩, rfl, rfl, rfl⟩
  case store x | fetch x =>
    simp only [execute, Except.ok.injEq] at h
    rw [passIndex_eq] at h
    subst h
    exact ⟨⟨rfl, rfl, rfl, rfl⟩, rfl, rfl, rfl⟩
  all_goals
    cases h
    exact ⟨⟨rfl, rfl, rfl, rfl⟩, rfl, rfl, rfl⟩

/-- No instruction moves a key. -/
theorem held_keypadAfter (m : Machine) (i : Instruction) :
    (m.keypadAfter i).held = m.keypad.held := by
  unfold keypadAfter
  split <;> rfl

/-- A return goes to the newest address on the stack, and takes it off. -/
theorem stack_eq_of_ret (h : m.execute .ret = .ok n) : m.stack = n.pc :: n.stack := by
  cases hs : m.stack with
  | nil => simp [execute, hs] at h
  | cons a rest =>
    simp only [execute, hs, Except.ok.injEq] at h
    subst h
    rfl

/-- A call that succeeds found room on the stack. -/
theorem length_lt_of_call {a : Address} (h : m.execute (.call a) = .ok n) :
    m.stack.length < stackDepth := by
  simp only [execute] at h
  split at h
  · assumption
  · cases h

theorem stack_cases_of_execute (h : m.execute i = .ok n) :
    n.stack = m.stack ∨
      (m.stack.length < stackDepth ∧ n.stack = (m.pc + 2) :: m.stack) ∨
      (i = .ret ∧ m.stack = n.pc :: n.stack) := by
  have hs := (executed_of_ok h).stack
  unfold stackAfter at hs
  split at hs
  · exact Or.inr (Or.inl ⟨length_lt_of_call h, hs⟩)
  · exact Or.inr (Or.inr ⟨rfl, stack_eq_of_ret h⟩)
  · exact Or.inl hs

end Chip8.Machine
