import Chip8.Proofs.Keypad
import Chip8.Proofs.Machine.Breakpoints
import Chip8.Proofs.Machine.Operation
import Mathlib.Data.List.Infix

/-! The wait for a key. Whatever is done to a machine in the meantime, it goes on with the first
key that went down since the wait began. -/
namespace Chip8

namespace Operation

/-- The operations that do one thing at a time and leave the program alone: no register is set and
nothing is loaded, started again or seeded. -/
def watches : Operation → Bool
  | .tick | .singlestep | .tickTimers | .setKey _ _ | .setFlags _ | .setBreak _ | .unsetBreak _ =>
    true
  | .multistep _ | .setV _ _ | .load _ | .reset | .reseed _ => false

def presses (m : Machine) : List Operation → List Key
  | [] => []
  | op :: ops =>
    m.keypad.wentDown (op.apply m).machine.keypad ++ presses (op.apply m).machine ops

theorem presses_concat (m : Machine) (ops : List Operation) (op : Operation) :
    presses m (ops ++ [op]) =
      presses m ops ++ (run m ops).keypad.wentDown (op.apply (run m ops)).machine.keypad := by
  induction ops generalizing m with
  | nil => simp [presses, run]
  | cons first ops ih =>
    rw [List.cons_append, presses, ih, presses, List.append_assoc]
    rfl

/-- From one keypad to the other the operation moved a key or nothing. -/
def Moves (op : Operation) (before after : Keypad) : Prop :=
  after = before ∨
    ∃ (key : Key) (down : Bool), op = .setKey key.val down ∧ after = (before.set key down).2

theorem Moves.latch {op : Operation} {before after : Keypad} (h : op.Moves before after) :
    after.latch = before.latch.or (before.wentDown after).head? := by
  rcases h with rfl | ⟨key, down, -, rfl⟩
  · rw [Keypad.wentDown_self]
    simp
  · exact Keypad.latch_set_eq_or before key down

theorem Moves.isHeld {op : Operation} {before after : Keypad} {key : Key}
    (h : op.Moves before after) (hh : before.isHeld key = true)
    (hr : op ≠ .setKey key.val false) : after.isHeld key = true := by
  rcases h with rfl | ⟨other, down, rfl, rfl⟩
  · exact hh
  · rw [Keypad.isHeld_set]
    split
    · rename_i he
      subst he
      cases down with
      | true => rfl
      | false => exact absurd rfl hr
    · exact hh

/-- None of the operations makes the machine act after a key went down. -/
def Patient (m : Machine) (ops : List Operation) : Prop :=
  ∀ earlier op, earlier ++ [op] <+: ops → presses m earlier ≠ [] → ¬ op.Acts (run m earlier)

instance (m : Machine) (ops : List Operation) : Decidable (Patient m ops) :=
  decidable_of_iff
    (∀ earlier ∈ ops.inits, ∀ op ∈ ops, earlier ++ [op] <+: ops →
      presses m earlier ≠ [] → ¬ op.Acts (run m earlier)) (by
    constructor
    · intro h earlier op he
      have hop : op ∈ ops := he.subset (by simp)
      exact h earlier ((List.mem_inits _ _).mpr ((List.prefix_append _ _).trans he)) op hop he
    · intro h earlier _ op _
      exact h earlier op)

theorem Patient.of_concat {m : Machine} {ops : List Operation} {op : Operation}
    (h : Patient m (ops ++ [op])) : Patient m ops :=
  fun earlier last hl => h earlier last (hl.trans (List.prefix_append ops [op]))

end Operation

namespace Machine

variable {m n : Machine} {x : Register}

/-- The two machines differ in nothing but flags, keys, timers and breakpoints. -/
def SameProgress (m n : Machine) : Prop :=
  n = { m with
    flags := n.flags, keypad := n.keypad, timers := n.timers, breakpoints := n.breakpoints }

theorem SameProgress.trans {k : Machine} (hmn : m.SameProgress n) (hnk : n.SameProgress k) :
    m.SameProgress k := by
  unfold SameProgress at hmn hnk ⊢
  rw [hnk, hmn]

/-- A machine that waits stays as it is until a key goes down. -/
theorem tick_of_waiting (ha : m.activity = .awaitingKey x)
    (h : m.flags.pause = true ∨ m.keypad.latch = none) : m.tick = .ok m () := by
  cases hp : m.flags.pause with
  | true => exact tick_of_pause hp
  | false =>
    have hl : m.keypad.latch = none := by simpa [hp] using h
    simp [tick, hp, ha, tickWaiting, Keypad.takePress, hl]

/-- What one operation does to a machine that waits, as long as there is no key to go on with: it
may move a key. -/
theorem waiting_step {op : Operation} (ha : m.activity = .awaitingKey x) (hw : op.watches)
    (hq : m.keypad.latch ≠ none → ¬ op.Acts m) :
    m.SameProgress (op.apply m).machine ∧
      op.Moves m.keypad (op.apply m).machine.keypad := by
  cases op with
  | tick =>
    have ht : m.tick = .ok m () := by
      refine tick_of_waiting ha ?_
      by_contra hc
      rw [not_or] at hc
      exact hq hc.2 (Or.inr ⟨rfl, by simpa using hc.1⟩)
    rw [Operation.apply, Operation.machine_answer, ht]
    exact ⟨rfl, Or.inl rfl⟩
  | singlestep =>
    have hl : m.keypad.latch = none := by
      by_contra hc
      exact hq hc (Or.inl rfl)
    have ht : m.unpaused.tick = .ok m.unpaused () := tick_of_waiting ha (Or.inr hl)
    rw [Operation.machine_of_acts (Or.inl rfl), ht]
    exact ⟨rfl, Or.inl rfl⟩
  | setBreak a =>
    rw [Operation.apply, machine_ok, setBreak_eq]
    exact ⟨rfl, Or.inl rfl⟩
  | setKey key down =>
    rw [Operation.apply, Operation.machine_answer]
    rcases Nat.lt_or_ge key 16 with hlt | hge
    · rw [setKey_of_lt hlt]
      exact ⟨rfl, Or.inr ⟨⟨key, hlt⟩, down, rfl, rfl⟩⟩
    · rw [setKey_of_le hge]
      exact ⟨rfl, Or.inl rfl⟩
  | tickTimers | setFlags | unsetBreak => exact ⟨rfl, Or.inl rfl⟩
  | multistep | setV | load | reset | reseed => cases hw

/-- What a machine has been through as long as it waits: its latch holds the first key that went
down, and a key that was down all the time is not among those. -/
structure Waited (m : Machine) (ops : List Operation) : Prop where
  progress : m.SameProgress (Operation.run m ops)
  latch : (Operation.run m ops).keypad.latch = (Operation.presses m ops).head?
  held : ∀ key : Key, m.keypad.isHeld key = true → Operation.setKey key.val false ∉ ops →
    (Operation.run m ops).keypad.isHeld key = true ∧ key ∉ Operation.presses m ops

theorem Waited.concat {ops : List Operation} {op : Operation} (h : Waited m ops)
    (hs : (Operation.run m ops).SameProgress (op.apply (Operation.run m ops)).machine)
    (hk : op.Moves (Operation.run m ops).keypad (op.apply (Operation.run m ops)).machine.keypad) :
    Waited m (ops ++ [op]) := by
  refine ⟨?_, ?_, ?_⟩
  · rw [Operation.run_concat]
    exact h.progress.trans hs
  · rw [Operation.run_concat, Operation.presses_concat, List.head?_append, ← h.latch]
    exact hk.latch
  · intro key hh hn
    rw [List.mem_append, not_or] at hn
    obtain ⟨hr, hp⟩ := h.held key hh hn.1
    have hop : op ≠ .setKey key.val false := fun he => hn.2 (by simp [he])
    rw [Operation.run_concat, Operation.presses_concat, List.mem_append, not_or]
    refine ⟨hk.isHeld hr hop, hp, ?_⟩
    intro hd
    rw [(Keypad.mem_wentDown.mp hd).1] at hr
    cases hr

theorem waited_of_patient {ops : List Operation} (ha : m.activity = .awaitingKey x)
    (hl : m.keypad.latch = none) (hw : ∀ op ∈ ops, op.watches) (hp : Operation.Patient m ops) :
    Waited m ops := by
  induction ops using List.reverseRecOn with
  | nil => exact ⟨rfl, hl, fun key hk _ => ⟨hk, List.not_mem_nil⟩⟩
  | append_singleton ops op ih =>
    have h := ih (fun o ho => hw o (List.mem_append_left _ ho)) hp.of_concat
    have han : (Operation.run m ops).activity = .awaitingKey x := by
      rw [h.progress]
      exact ha
    have hq : (Operation.run m ops).keypad.latch ≠ none → ¬ op.Acts (Operation.run m ops) := by
      intro hne
      refine hp ops op (List.prefix_refl _) ?_
      intro hn
      rw [h.latch, hn] at hne
      exact hne rfl
    obtain ⟨hs, hk⟩ := waiting_step han (hw op (by simp)) hq
    exact h.concat hs hk

/-- The wait begins: `pc` stays where it is, and the latch is emptied. -/
theorem machine_of_awaitKey {op : Operation} (h : op.Acts m) (hx : m.Faces (.awaitKey x)) :
    (op.apply m).machine =
      { m with
        keypad := m.keypad.arm
        activity := .awaitingKey x
        cycle := m.cycle + 1
        flags.pause := decide (op = .singlestep) || decide (addressWord m.pc ∈ m.breakpoints) } := by
  have hu : m.unpaused.Faces (.awaitKey x) := hx
  have ht := machine_tick_of_attempt rfl hu.1 hu.attempt_eq
  rw [Operation.machine_of_acts h, ht, machine_complete]
  rfl

/-- The wait ends: the key goes to `vX` and `pc` to the next instruction. -/
theorem machine_of_latch {op : Operation} {key : Key} (h : op.Acts m)
    (ha : m.activity = .awaitingKey x) (hl : m.keypad.latch = some key) :
    (op.apply m).machine =
      { m with
        v := m.v.set x (UInt8.ofNat key.val)
        pc := m.pc + 2
        activity := .running
        cycle := m.cycle + 1
        keypad.latch := none
        flags.pause :=
          decide (op = .singlestep) || decide (addressWord (m.pc + 2) ∈ m.breakpoints) } := by
  have ht : m.unpaused.tick = (m.unpaused.receiveKey x key).complete #[] := by
    simp [tick, unpaused, ha, tickWaiting, Keypad.takePress, hl]
  rw [Operation.machine_of_acts h, ht, machine_complete]
  rfl

/-- A machine that comes to `Fx0A` stands there until it acts after a key went down, and then goes
on with the key that went down first. A key that was down before does not count. -/
theorem key_wait_protocol {m w n : Machine} {x : Register} {start : Operation}
    {ops : List Operation} (hs : start.Acts m) (hx : m.Faces (.awaitKey x))
    (hw : (start.apply m).machine = w) (ho : ∀ op ∈ ops, op.watches)
    (hp : Operation.Patient w ops) (hn : Operation.run w ops = n) :
    n = { m with
      activity := .awaitingKey x
      cycle := m.cycle + 1
      flags := n.flags, keypad := n.keypad, timers := n.timers, breakpoints := n.breakpoints } ∧
    Instruction.decode n.nextWord = some (.awaitKey x) ∧
    (∀ (op : Operation) (key : Key), op.Acts n → (Operation.presses w ops).head? = some key →
      (op.apply n).machine =
        { n with
          v := n.v.set x (UInt8.ofNat key.val)
          pc := m.pc + 2
          activity := .running
          cycle := n.cycle + 1
          keypad.latch := none
          flags.pause :=
            decide (op = .singlestep) || decide (addressWord (m.pc + 2) ∈ n.breakpoints) }) ∧
    (∀ key : Key, w.keypad.isHeld key = true → Operation.setKey key.val false ∉ ops →
      key ∉ Operation.presses w ops) := by
  have hwm := (machine_of_awaitKey hs hx).symm.trans hw
  have hwait : Waited w ops := waited_of_patient (by rw [← hwm]) (by rw [← hwm]; rfl) ho hp
  have hnm := hwait.progress
  rw [hn, SameProgress, ← hwm] at hnm
  have hpc : n.pc = m.pc := by rw [hnm]
  have han : n.activity = .awaitingKey x := by rw [hnm]
  refine ⟨hnm, ?_, ?_, ?_⟩
  · rw [hnm]
    exact hx.2
  · intro op key ha hk
    have hl : n.keypad.latch = some key := by rw [← hn, hwait.latch, hk]
    rw [machine_of_latch ha han hl, hpc]
  · intro key hh hr
    exact (hwait.held key hh hr).2

/-- Key 5 is down from before. Key 7 goes down and up again around a pause, then key 2 goes down:
the machine goes on with key 7. -/
theorem key_wait_takes_first :
    let m := Operation.run (.boot {} (.ofSeed 0)) [.load [0xf3, 0x0a], .reset, .setKey 5 true]
    let ops : List Operation := [.tick, .setFlags { pause := true }, .setKey 7 true, .tick,
      .setKey 7 false, .setFlags {}, .setKey 2 true]
    let n := Operation.run m.tick.machine ops
    n.pc = 0x200 ∧ n.tick.machine.v = n.v.set 3 7 ∧ n.tick.machine.pc = 0x202 := by
  intro m ops n
  have hrun : Instruction.decode m.nextWord = some (.awaitKey 3) ∧
      Operation.Patient m.tick.machine ops ∧
      (Operation.presses m.tick.machine ops).head? = some 7 := by decide +kernel
  obtain ⟨hx, hp, hk⟩ := hrun
  have hs : Operation.Acts .tick m := Or.inr ⟨rfl, rfl⟩
  have ho : ∀ op ∈ ops, op.watches = true := by decide
  obtain ⟨hn, -, hgo, -⟩ := key_wait_protocol hs ⟨rfl, hx⟩ rfl ho hp rfl
  have ha : Operation.Acts .tick n := Or.inr ⟨rfl, rfl⟩
  have ht := hgo .tick 7 ha hk
  exact ⟨congrArg Machine.pc hn, congrArg Machine.v ht, congrArg Machine.pc ht⟩

end Machine

end Chip8
