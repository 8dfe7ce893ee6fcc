import Chip8.Machine.Step
import Chip8.Proofs.Machine.Execution

/-! What a tick can do, and what several ticks in a row come to. -/
namespace Chip8.Machine

variable {m n : Machine}

@[simp] theorem machine_ok {α : Type} (m : Machine) (a : α) : (Step.ok m a).machine = m := rfl

/-- A machine that is counted stops only if `pc` stands at a breakpoint. -/
@[simp] theorem machine_complete (m : Machine) (notices : Array Notice) :
    (m.complete notices).machine =
      { m with
        cycle := m.cycle + 1
        flags.pause := m.flags.pause || decide (addressWord m.pc ∈ m.breakpoints) } := by
  unfold complete
  dsimp only
  split
  · rename_i hb
    simp [hb]
  · rename_i hb
    simp [hb]

theorem result_complete (m : Machine) (notices : Array Notice) :
    (m.complete notices).result =
      if addressWord m.pc ∈ m.breakpoints then
        .error (.breakpoint (addressWord m.pc) m.nextWord)
      else .ok () := by
  unfold complete
  dsimp only
  split
  · rfl
  · rfl

theorem pause_complete (m : Machine) (notices : Array Notice) :
    ((m.complete notices).result = .ok () →
      (m.complete notices).machine.flags.pause = m.flags.pause) ∧
      ∀ f, (m.complete notices).result = .error f →
        (m.complete notices).machine.flags.pause = true := by
  rw [result_complete, machine_complete]
  split
  · rename_i hb
    exact ⟨nofun, fun f _ => by simp [hb]⟩
  · rename_i hb
    exact ⟨fun _ => by simp [hb], nofun⟩

/-- The word at `pc` is the instruction `i`, and the machine is ready for it. -/
def Faces (m : Machine) (i : Instruction) : Prop :=
  m.activity = .running ∧ Instruction.decode m.nextWord = some i

/-- What the word at `pc` makes of a machine, before that is counted. -/
def attempt (m : Machine) : Except Fault Machine :=
  match Instruction.decode m.nextWord with
  | none =>
    if m.flags.lenient then .ok m.advance
    else .error (.unrecognized m.nextWord (addressWord m.pc))
  | some i => m.execute i

theorem tickRunning_eq (m : Machine) :
    ∃ notices, m.tickRunning =
      match m.attempt with
      | .ok n => n.complete notices
      | .error f => ⟨m, .error f, notices⟩ := by
  unfold tickRunning attempt
  dsimp only
  cases Instruction.decode m.nextWord with
  | none =>
    cases m.flags.lenient with
    | false => exact ⟨_, rfl⟩
    | true => exact ⟨_, rfl⟩
  | some i =>
    dsimp only
    cases m.execute i with
    | ok n => exact ⟨_, rfl⟩
    | error f => exact ⟨_, rfl⟩

/-- Everything that a tick can come to. -/
inductive TicksTo (m : Machine) : Step Unit → Prop where
  | paused (hp : m.flags.pause = true) : TicksTo m (.ok m ())
  | idle {x : Register} (hp : m.flags.pause = false) (ha : m.activity = .awaitingKey x)
      (hl : m.keypad.latch = none) : TicksTo m (.ok m ())
  | received {x : Register} {key : Key} (hp : m.flags.pause = false)
      (ha : m.activity = .awaitingKey x) (hl : m.keypad.latch = some key) :
      TicksTo m ((m.receiveKey x key).complete #[])
  | refused {f : Fault} {notices : Array Notice} (hp : m.flags.pause = false)
      (ha : m.activity = .running) (h : m.attempt = .error f) : TicksTo m ⟨m, .error f, notices⟩
  | completed {n : Machine} {notices : Array Notice} (hp : m.flags.pause = false)
      (ha : m.activity = .running) (h : m.attempt = .ok n) : TicksTo m (n.complete notices)

theorem ticksTo_tick (m : Machine) : m.TicksTo m.tick := by
  unfold tick
  cases hp : m.flags.pause with
  | true => exact .paused hp
  | false =>
    cases ha : m.activity with
    | running =>
      obtain ⟨notices, ht⟩ := tickRunning_eq m
      cases hm : m.attempt with
      | ok n =>
        simp only [hm] at ht
        simpa [ht] using TicksTo.completed hp ha hm
      | error f =>
        simp only [hm] at ht
        simpa [ht] using TicksTo.refused hp ha hm
    | awaitingKey x =>
      cases hl : m.keypad.latch with
      | none => simpa [tickWaiting, Keypad.takePress, hl] using TicksTo.idle hp ha hl
      | some key => simpa [tickWaiting, Keypad.takePress, hl] using TicksTo.received hp ha hl

theorem Faces.attempt_eq {i : Instruction} (h : m.Faces i) : m.attempt = m.execute i := by
  simp only [attempt, h.2]

/-- An attempt that succeeds passes over a word or executes an instruction. -/
theorem attempt_eq_ok (h : m.attempt = .ok n) :
    n = m.advance ∨ ∃ i, Instruction.decode m.nextWord = some i ∧ m.execute i = .ok n := by
  unfold attempt at h
  cases hd : Instruction.decode m.nextWord with
  | none =>
    simp only [hd] at h
    split at h <;> cases h
    exact Or.inl rfl
  | some i =>
    simp only [hd] at h
    exact Or.inr ⟨i, rfl, h⟩

theorem sameSetup_of_attempt (h : m.attempt = .ok n) : SameSetup m n := by
  obtain rfl | ⟨i, -, hi⟩ := attempt_eq_ok h
  · exact ⟨rfl, rfl, rfl, rfl⟩
  · exact (executed_of_ok hi).toSameSetup

/-- Only counting stops at a breakpoint. -/
theorem isBreakpoint_of_attempt {f : Fault} (h : m.attempt = .error f) :
    f.isBreakpoint = false := by
  unfold attempt at h
  cases hd : Instruction.decode m.nextWord with
  | none =>
    simp only [hd] at h
    split at h <;> cases h
    rfl
  | some i =>
    simp only [hd] at h
    obtain ⟨a, -, -, rfl⟩ | ⟨-, -, rfl⟩ := execute_eq_error_iff.mp h
    · rfl
    · rfl

namespace TicksTo

variable {s : Step Unit}

theorem breakpoints (h : m.TicksTo s) : s.machine.breakpoints = m.breakpoints := by
  cases h with
  | paused | idle | refused => rfl
  | received => simp [receiveKey, advance, setRegister]
  | completed hp ha hn => simpa using (sameSetup_of_attempt hn).breakpoints

/-- A tick changes no flag but the pause. -/
theorem flags (h : m.TicksTo s) :
    s.machine.flags = { m.flags with pause := s.machine.flags.pause } := by
  cases h with
  | paused | idle | refused => rfl
  | received => simp [receiveKey, advance, setRegister]
  | completed hp ha hn => simp [(sameSetup_of_attempt hn).flags]

theorem program (h : m.TicksTo s) : s.machine.program = m.program := by
  cases h with
  | paused | idle | refused => rfl
  | received => simp [receiveKey, advance, setRegister]
  | completed hp ha hn => simpa using (sameSetup_of_attempt hn).program

/-- A tick counts for one instruction at most. -/
theorem cycle (h : m.TicksTo s) : m.cycle ≤ s.machine.cycle ∧ s.machine.cycle ≤ m.cycle + 1 := by
  cases h with
  | paused | idle | refused => simp
  | received => simp [receiveKey, advance, setRegister]
  | completed hp ha hn => simp [(sameSetup_of_attempt hn).cycle]

/-- A tick pauses a machine if it stops at a breakpoint, and then only. -/
theorem pause (h : m.TicksTo s) :
    (s.result = .ok () → s.machine.flags.pause = m.flags.pause) ∧
      ∀ f, s.result = .error f → f.isBreakpoint = true → s.machine.flags.pause = true := by
  cases h with
  | paused | idle => exact ⟨fun _ => rfl, nofun⟩
  | refused hp ha hm =>
    refine ⟨nofun, fun f hf hb => ?_⟩
    cases hf
    rw [isBreakpoint_of_attempt hm] at hb
    cases hb
  | @received x key =>
    obtain ⟨hok, herror⟩ := pause_complete (m.receiveKey x key) #[]
    exact ⟨hok, fun f hf _ => herror f hf⟩
  | @completed n notices hp ha hn =>
    obtain ⟨hok, herror⟩ := pause_complete n notices
    have hflags := congrArg Flags.pause (sameSetup_of_attempt hn).flags
    exact ⟨fun hr => (hok hr).trans hflags, fun f hf _ => herror f hf⟩

/-- A tick moves no key. -/
theorem held (h : m.TicksTo s) : s.machine.keypad.held = m.keypad.held := by
  cases h with
  | paused | idle | refused => rfl
  | received => simp [receiveKey, advance, setRegister, Keypad.arm]
  | @completed n notices hp ha hn =>
    obtain rfl | ⟨i, -, hi⟩ := attempt_eq_ok hn
    · simp [advance]
    · have hk := (executed_of_ok hi).keypad
      rw [machine_complete]
      exact (congrArg Keypad.held hk).trans (held_keypadAfter m i)

/-- Only `Fx0A` makes a machine wait. -/
theorem activity (h : m.TicksTo s) :
    s.machine.activity = m.activity ∨ s.machine.activity = .running ∨
      ∃ x, m.flags.pause = false ∧ m.Faces (.awaitKey x) := by
  cases h with
  | paused | idle | refused => exact Or.inl rfl
  | received => exact Or.inr (Or.inl (by simp [receiveKey]))
  | @completed n notices hp ha hn =>
    obtain rfl | ⟨i, hd, hi⟩ := attempt_eq_ok hn
    · exact Or.inl (by simp [advance])
    have hx := (executed_of_ok hi).activity
    unfold activityAfter at hx
    split at hx
    · exact Or.inr (Or.inr ⟨_, hp, ha, hd⟩)
    · exact Or.inl (by simpa using hx)

/-- A tick leaves the stack alone unless it calls or returns. -/
theorem stack (h : m.TicksTo s) :
    s.machine.stack = m.stack ∨
      (m.stack.length < stackDepth ∧ s.machine.stack = (m.pc + 2) :: m.stack) ∨
      (m.flags.pause = false ∧ m.Faces .ret ∧ m.stack = s.machine.pc :: s.machine.stack) := by
  cases h with
  | paused | idle | refused => exact Or.inl rfl
  | received => exact Or.inl (by simp [receiveKey, advance, setRegister])
  | @completed n notices hp ha hn =>
    obtain rfl | ⟨i, hd, hi⟩ := attempt_eq_ok hn
    · exact Or.inl (by simp [advance])
    rcases stack_cases_of_execute hi with hs | ⟨hr, hs⟩ | ⟨rfl, hs⟩
    · exact Or.inl (by simpa using hs)
    · exact Or.inr (Or.inl ⟨hr, by simpa using hs⟩)
    · exact Or.inr (Or.inr ⟨hp, ⟨ha, hd⟩, by simpa using hs⟩)

end TicksTo

/-- A machine that is free to act does what the word at `pc` says. -/
theorem tick_eq_of_running (hp : m.flags.pause = false) (ha : m.activity = .running) :
    ∃ notices, m.tick =
      match m.attempt with
      | .ok n => n.complete notices
      | .error f => ⟨m, .error f, notices⟩ := by
  have ht : m.tick = m.tickRunning := by simp [tick, hp, ha]
  rw [ht]
  exact tickRunning_eq m

theorem result_tick_of_attempt {f : Fault} (hp : m.flags.pause = false)
    (ha : m.activity = .running) (h : m.attempt = .error f) : m.tick.result = .error f := by
  obtain ⟨notices, ht⟩ := tick_eq_of_running hp ha
  rw [ht, h]

theorem machine_tick_of_attempt (hp : m.flags.pause = false) (ha : m.activity = .running)
    (h : m.attempt = .ok n) : m.tick.machine = (n.complete #[]).machine := by
  obtain ⟨notices, ht⟩ := tick_eq_of_running hp ha
  rw [ht, h, machine_complete, machine_complete]

/-- The machine after `k` ticks, whatever they came to. -/
def afterTicks (m : Machine) : Nat → Machine
  | 0 => m
  | k + 1 => (m.afterTicks k).tick.machine

theorem afterTicks_succ (m : Machine) (k : Nat) :
    m.tick.machine.afterTicks k = m.afterTicks (k + 1) := by
  induction k with
  | zero => rfl
  | succ k ih => exact congrArg (fun n => n.tick.machine) ih

theorem afterTicks_of_pause (h : m.flags.pause = true) (k : Nat) : m.afterTicks k = m := by
  induction k with
  | zero => rfl
  | succ k ih => rw [afterTicks, ih, tick_of_pause h, machine_ok]

def Runs (m : Machine) (k : Nat) : Prop := ∀ j < k, (m.afterTicks j).tick.result = .ok ()

theorem runs_succ {k : Nat} (ht : m.tick.result = .ok ()) (h : m.tick.machine.Runs k) :
    m.Runs (k + 1) := by
  intro j hj
  cases j with
  | zero => exact ht
  | succ j =>
    rw [← afterTicks_succ]
    exact h j (by omega)

/-- Several ticks in a row are all done, or they end with the first that fails. -/
theorem continueFor_cases {s : Step Unit} (n : Nat) (hs : s.result = .ok ()) :
    ((continueFor n s).result = .ok () ∧ s.machine.Runs n ∧
        (continueFor n s).machine = s.machine.afterTicks n) ∨
      ∃ k < n, ∃ f, (continueFor n s).result = .error f ∧ s.machine.Runs k ∧
        (s.machine.afterTicks k).tick.result = .error f ∧
        (continueFor n s).machine = s.machine.afterTicks (k + 1) := by
  induction n generalizing s with
  | zero => exact Or.inl ⟨hs, fun j hj => by omega, rfl⟩
  | succ n ih =>
    rw [continueFor_of_ok n hs]
    cases ht : s.machine.tick.result with
    | error f =>
      rw [continueFor_of_error n (by simpa using ht)]
      exact Or.inr ⟨0, by omega, f, ht, fun j hj => by omega, ht, rfl⟩
    | ok u =>
      rcases ih (s := s.machine.tick.after s.notices) (by simpa using ht) with
        ⟨hr, hj, hm⟩ | ⟨k, hk, f, hr, hj, hf, hm⟩
      · rw [Step.machine_after, afterTicks_succ] at hm
        exact Or.inl ⟨hr, runs_succ ht hj, hm⟩
      · rw [Step.machine_after, afterTicks_succ] at hf hm
        exact Or.inr ⟨k + 1, by omega, f, hr, runs_succ ht hj, hf, hm⟩

theorem multistep_cases (m : Machine) (n : Nat) :
    ((m.multistep n).result = .ok () ∧ m.Runs n ∧ (m.multistep n).machine = m.afterTicks n) ∨
      ∃ k < n, ∃ f, (m.multistep n).result = .error f ∧ m.Runs k ∧
        (m.afterTicks k).tick.result = .error f ∧
        (m.multistep n).machine = m.afterTicks (k + 1) :=
  continueFor_cases n rfl

theorem exists_afterTicks_eq_multistep (m : Machine) (n : Nat) :
    ∃ k ≤ n, (m.multistep n).machine = m.afterTicks k := by
  rcases multistep_cases m n with ⟨-, -, hm⟩ | ⟨k, hk, f, -, -, -, hm⟩
  · exact ⟨n, Nat.le_refl n, hm⟩
  · exact ⟨k + 1, hk, hm⟩

/-- A tick fails for no other reason than a breakpoint or the word at `pc`, which then leaves the
machine alone. -/
theorem TicksTo.of_error {s : Step Unit} {f : Fault} (h : m.TicksTo s) (hf : f.isBreakpoint = false)
    (hs : s.result = .error f) :
    m.flags.pause = false ∧ m.activity = .running ∧ m.attempt = .error f ∧ s.machine = m := by
  cases h with
  | paused | idle => cases hs
  | refused hp ha hm =>
    cases hs
    exact ⟨hp, ha, hm, rfl⟩
  | received | completed =>
    rw [result_complete] at hs
    split at hs <;> cases hs
    cases hf

theorem machine_tick_of_error {f : Fault} (hf : f.isBreakpoint = false)
    (h : m.tick.result = .error f) : m.tick.machine = m :=
  ((ticksTo_tick m).of_error hf h).2.2.2

/-- Several ticks that fail get as far as the first that does. -/
theorem multistep_of_error {f : Fault} {n : Nat} (h : (m.multistep n).result = .error f) :
    ∃ k < n, m.Runs k ∧ (m.afterTicks k).tick.result = .error f ∧
      (m.multistep n).machine = m.afterTicks (if f.isBreakpoint then k + 1 else k) := by
  obtain ⟨hr, -, -⟩ | ⟨k, hk, g, hr, hj, hg, hm⟩ := multistep_cases m n
  · rw [hr] at h
    cases h
  · rw [hr] at h
    cases h
    refine ⟨k, hk, hj, hg, ?_⟩
    cases hf : f.isBreakpoint with
    | true => simpa using hm
    | false =>
      rw [hm, afterTicks, machine_tick_of_error hf hg]
      rfl

theorem held_afterTicks (m : Machine) (k : Nat) : (m.afterTicks k).keypad.held = m.keypad.held := by
  induction k with
  | zero => rfl
  | succ k ih => exact (ticksTo_tick _).held.trans ih

theorem held_multistep (m : Machine) (n : Nat) :
    (m.multistep n).machine.keypad.held = m.keypad.held := by
  obtain ⟨k, -, hk⟩ := exists_afterTicks_eq_multistep m n
  rw [hk, held_afterTicks]

end Chip8.Machine
