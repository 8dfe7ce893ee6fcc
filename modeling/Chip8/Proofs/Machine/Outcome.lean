import Chip8.Proofs.Machine.Tick

/-! A tick in two parts: what the machine makes of it, and the counting after that. -/
namespace Chip8.Machine

variable {m n : Machine}

def Fetches (m : Machine) : Prop := m.flags.pause = false ∧ m.activity = .running

instance (m : Machine) : Decidable m.Fetches := inferInstanceAs (Decidable (_ ∧ _))

/-- What a machine that is not paused makes of a tick, before that is counted. It makes nothing of
it as long as it waits for a key. -/
def outcome (m : Machine) : Except Fault (Option Machine) :=
  match m.activity with
  | .running => m.attempt.map some
  | .awaitingKey x => .ok (m.keypad.latch.map (m.receiveKey x))

theorem outcome_of_running (ha : m.activity = .running) : m.outcome = m.attempt.map some := by
  simp only [outcome, ha]

theorem outcome_of_awaitingKey {x : Register} (ha : m.activity = .awaitingKey x) :
    m.outcome = .ok (m.keypad.latch.map (m.receiveKey x)) := by
  simp only [outcome, ha]

/-- A change that both ways of going on let through is let through by the outcome. -/
theorem outcome_map {k : Machine} {g : Machine → Machine} (ha : k.activity = m.activity)
    (hk : k.keypad = m.keypad) (hr : m.activity = .running → k.attempt = m.attempt.map g)
    (hx : ∀ x key, m.activity = .awaitingKey x → k.receiveKey x key = g (m.receiveKey x key)) :
    k.outcome = m.outcome.map (Option.map g) := by
  cases hm : m.activity with
  | running =>
    rw [outcome_of_running (ha.trans hm), outcome_of_running hm, hr hm]
    cases m.attempt <;> rfl
  | awaitingKey x =>
    rw [outcome_of_awaitingKey (ha.trans hm), outcome_of_awaitingKey hm, hk]
    cases m.keypad.latch with
    | none => rfl
    | some key => exact congrArg (Except.ok ∘ some) (hx x key hm)

/-- A tick, but for what it tells, counts the outcome if there is one. -/
def settle (m : Machine) : Except Fault (Option Machine) → Step Unit
  | .ok (some n) => n.complete #[]
  | .ok none => .ok m ()
  | .error f => .fail m f

theorem tick_eq_settle (hp : m.flags.pause = false) :
    m.tick.machine = (m.settle m.outcome).machine ∧
      m.tick.result = (m.settle m.outcome).result := by
  cases ha : m.activity with
  | running =>
    obtain ⟨notices, ht⟩ := tick_eq_of_running hp ha
    rw [ht, outcome_of_running ha]
    cases m.attempt with
    | error f => exact ⟨rfl, rfl⟩
    | ok n => exact ⟨by simp [settle, Except.map], by simp [settle, Except.map, result_complete]⟩
  | awaitingKey x =>
    have ht : m.tick = m.tickWaiting x := by simp [tick, hp, ha]
    rw [ht, outcome_of_awaitingKey ha, tickWaiting, Keypad.takePress]
    cases m.keypad.latch with
    | none => exact ⟨rfl, rfl⟩
    | some key => exact ⟨rfl, rfl⟩

/-- No outcome touches flags, breakpoints, the program and the count. -/
theorem sameSetup_of_outcome (h : m.outcome = .ok (some n)) : SameSetup m n := by
  cases ha : m.activity with
  | running =>
    rw [outcome_of_running ha] at h
    cases hm : m.attempt with
    | error f =>
      rw [hm] at h
      cases h
    | ok k =>
      rw [hm] at h
      cases h
      exact sameSetup_of_attempt hm
  | awaitingKey x =>
    rw [outcome_of_awaitingKey ha] at h
    obtain ⟨key, -, rfl⟩ := Option.map_eq_some_iff.mp (Except.ok.inj h)
    exact ⟨rfl, rfl, rfl, rfl⟩

theorem isBreakpoint_of_outcome {f : Fault} (h : m.outcome = .error f) :
    f.isBreakpoint = false := by
  cases ha : m.activity with
  | running =>
    rw [outcome_of_running ha] at h
    cases hm : m.attempt with
    | error g =>
      rw [hm] at h
      cases h
      exact isBreakpoint_of_attempt hm
    | ok n =>
      rw [hm] at h
      cases h
  | awaitingKey x =>
    rw [outcome_of_awaitingKey ha] at h
    cases h

end Chip8.Machine
