import Chip8.Proofs.Machine.Invariant
import Mathlib.Data.List.Infix

/-! Calls and returns match. What stood on the stack at a call stays there until the return that
belongs to the call, whatever runs in between. -/
namespace Chip8

namespace Operation

/-- The operations that do one thing at a time and do not start the program again. -/
def continues : Operation → Bool
  | .multistep _ | .reset => false
  | _ => true

/-- The stack holds more than `depth` addresses after each of the operations. -/
def Deeper (m : Machine) (depth : Nat) (ops : List Operation) : Prop :=
  ∀ earlier, earlier <+: ops → depth < (run m earlier).stack.length

instance (m : Machine) (depth : Nat) (ops : List Operation) : Decidable (Deeper m depth ops) :=
  decidable_of_iff (∀ earlier ∈ ops.inits, depth < (run m earlier).stack.length) (by
    simp only [Deeper, List.mem_inits])

end Operation

namespace Machine

variable {m : Machine}

/-- One operation leaves the stack alone, puts an address on it, or returns. -/
theorem stack_of_continues {op : Operation} (h : op.continues) :
    (op.apply m).machine.stack = m.stack ∨
      (∃ a, (op.apply m).machine.stack = a :: m.stack) ∨
      (op.Acts m ∧ m.Faces .ret ∧
        m.stack = (op.apply m).machine.pc :: (op.apply m).machine.stack) := by
  cases op with
  | tick =>
    rcases (ticksTo_tick m).stack with hs | ⟨-, hs⟩ | ⟨hp, hf, hs⟩
    · exact Or.inl hs
    · exact Or.inr (Or.inl ⟨_, hs⟩)
    · exact Or.inr (Or.inr ⟨Or.inr ⟨rfl, hp⟩, hf, hs⟩)
  | singlestep =>
    rcases (ticksTo_tick m.unpaused).stack with hs | ⟨-, hs⟩ | ⟨-, hf, hs⟩
    · exact Or.inl hs
    · exact Or.inr (Or.inl ⟨_, hs⟩)
    · exact Or.inr (Or.inr ⟨Or.inl rfl, hf, hs⟩)
  | setKey key down =>
    rw [Operation.apply, Operation.machine_answer, machine_setKey]
    exact Or.inl rfl
  | setV register b =>
    rw [Operation.apply, Operation.machine_answer, machine_setV]
    exact Or.inl rfl
  | load program =>
    rw [Operation.apply, Operation.machine_answer, machine_load]
    exact Or.inl rfl
  | setBreak a =>
    rw [Operation.apply, machine_ok, setBreak_eq]
    exact Or.inl rfl
  | tickTimers | unsetBreak | reseed | setFlags => exact Or.inl rfl
  | multistep | reset => cases h

/-- One operation either leaves the lowest part of the stack in place, or returns to the address
on top of that part and leaves the rest of it. -/
theorem suffix_of_continues {op : Operation} {a : Address} {rest : List Address}
    (h : op.continues) (hs : a :: rest <:+ m.stack) :
    (rest.length < (op.apply m).machine.stack.length → a :: rest <:+ (op.apply m).machine.stack) ∧
      ((op.apply m).machine.stack.length ≤ rest.length →
        op.Acts m ∧ m.Faces .ret ∧ (op.apply m).machine.stack = rest ∧
          (op.apply m).machine.pc = a) := by
  have hl := hs.length_le
  rw [List.length_cons] at hl
  rcases stack_of_continues h with he | ⟨b, he⟩ | ⟨ha, hf, he⟩
  · rw [he]
    exact ⟨fun _ => hs, fun hr => absurd hr (by omega)⟩
  · rw [he, List.length_cons]
    exact ⟨fun _ => hs.trans (List.suffix_cons b m.stack), fun hr => absurd hr (by omega)⟩
  · rw [he, List.suffix_cons_iff] at hs
    rcases hs with hs | hs
    · obtain ⟨rfl, rfl⟩ := List.cons.inj hs
      exact ⟨fun hr => absurd hr (by omega), fun _ => ⟨ha, hf, rfl, rfl⟩⟩
    · have hl := hs.length_le
      rw [List.length_cons] at hl
      exact ⟨fun _ => hs, fun hr => absurd hr (by omega)⟩

theorem suffix_run {ops : List Operation} {a : Address} {rest : List Address}
    (hs : a :: rest <:+ m.stack) (ho : ∀ op ∈ ops, op.continues)
    (hd : Operation.Deeper m rest.length ops) : a :: rest <:+ (Operation.run m ops).stack := by
  induction ops using List.reverseRecOn with
  | nil => exact hs
  | append_singleton ops op ih =>
    have hops := ih (fun o h => ho o (List.mem_append_left _ h))
      (fun earlier he => hd earlier (he.trans (List.prefix_append ops [op])))
    have hlong := hd (ops ++ [op]) (List.prefix_refl _)
    rw [Operation.run_concat] at hlong ⊢
    exact (suffix_of_continues (ho op (by simp)) hops).1 hlong

/-- A call that does not fail puts the address behind it on the stack. -/
theorem stack_of_call {op : Operation} {a : Address} (h : op.Acts m) (hc : m.Faces (.call a))
    (hok : ∀ f, (op.apply m).result = .error f → f.isBreakpoint = true) :
    (op.apply m).machine.stack = (m.pc + 2) :: m.stack := by
  have hu : m.unpaused.Faces (.call a) := hc
  have hm := hu.attempt_eq
  cases he : m.unpaused.execute (.call a) with
  | ok n =>
    have ht := machine_tick_of_attempt rfl hu.1 (hm.trans he)
    rw [Operation.machine_of_acts h, ht, machine_complete]
    exact (executed_of_ok he).stack
  | error f =>
    have ht := result_tick_of_attempt rfl hu.1 (hm.trans he)
    have hf := hok f (by rw [Operation.result_of_acts h, ht]; rfl)
    obtain ⟨b, -, -, rfl⟩ | ⟨hr, -⟩ := execute_eq_error_iff.mp he
    · cases hf
    · cases hr

/-- As long as the stack is deeper than before a call, the address behind the call lies on what
stood there before. The operation that ends this is a return to that address. -/
theorem calls_and_returns_match {m w : Machine} {a : Address} {start : Operation}
    {ops : List Operation} (hs : start.Acts m) (hc : m.Faces (.call a))
    (hok : ∀ f, (start.apply m).result = .error f → f.isBreakpoint = true)
    (hw : (start.apply m).machine = w) (ho : ∀ op ∈ ops, op.continues)
    (hd : Operation.Deeper w m.stack.length ops) :
    (m.pc + 2) :: m.stack <:+ (Operation.run w ops).stack ∧
      ∀ op : Operation, op.continues →
        (Operation.run w (ops ++ [op])).stack.length ≤ m.stack.length →
        op.Acts (Operation.run w ops) ∧ (Operation.run w ops).Faces .ret ∧
          (Operation.run w (ops ++ [op])).stack = m.stack ∧
          (Operation.run w (ops ++ [op])).pc = m.pc + 2 := by
  have hstack : w.stack = (m.pc + 2) :: m.stack := by
    rw [← hw]
    exact stack_of_call hs hc hok
  have hsuffix : (m.pc + 2) :: m.stack <:+ w.stack := hstack ▸ List.suffix_refl _
  have hrun := suffix_run hsuffix ho hd
  refine ⟨hrun, ?_⟩
  intro op hop hl
  rw [Operation.run_concat] at hl ⊢
  exact (suffix_of_continues hop hrun).2 hl

/-- A call in a call: the inner return keeps the outer address, the outer return goes to it. -/
theorem nested_calls_match :
    let m := Operation.run (.boot {} (.ofSeed 0))
      [.load [0x22, 0x04, 0x12, 0x02, 0x22, 0x08, 0x00, 0xee, 0x00, 0xee], .reset]
    let w := m.tick.machine
    [0x202] <:+ (Operation.run w [.tick, .tick]).stack ∧
      (Operation.run w [.tick, .tick, .tick]).stack = [] ∧
      (Operation.run w [.tick, .tick, .tick]).pc = 0x202 := by
  intro m w
  have hrun : Instruction.decode m.nextWord = some (.call 0x204) ∧
      (Operation.apply m .tick).result = .ok .done ∧ Operation.Deeper w 0 [.tick, .tick] ∧
      (Operation.run w [.tick, .tick, .tick]).stack.length ≤ 0 := by decide +kernel
  obtain ⟨hc, hr, hd, hl⟩ := hrun
  have hok : ∀ f, (Operation.apply m .tick).result = .error f → f.isBreakpoint = true := by
    intro f hf
    rw [hr] at hf
    cases hf
  have hs : Operation.Acts .tick m := Or.inr ⟨rfl, rfl⟩
  have ho : ∀ op ∈ [Operation.tick, .tick], op.continues = true := by decide
  obtain ⟨hsuffix, hreturn⟩ := calls_and_returns_match hs ⟨rfl, hc⟩ hok rfl ho hd
  obtain ⟨-, -, hstack, hpc⟩ := hreturn .tick rfl hl
  exact ⟨hsuffix, hstack, hpc⟩

end Machine

end Chip8
