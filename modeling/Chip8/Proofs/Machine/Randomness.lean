import Chip8.Monitor
import Chip8.Proofs.Machine.Agreement
import Chip8.Proofs.Machine.Breakpoints
import Chip8.Proofs.Machine.Effects

/-! Random numbers are taken from the keystream one after the other. Each `Cxbb` takes the next
word, and nothing else takes any. -/
namespace Chip8

/-- A random number that was taken: where it went, what it was masked with, and what was stored. -/
structure Draw where
  register : Register
  mask : UInt8
  stored : UInt8
  deriving DecidableEq

namespace Keystream

/-- Taking the numbers of some draws, and no others, leads from one place in a stream to another. -/
inductive Yields : Keystream → List Draw → Keystream → Prop where
  | nil (r : Keystream) : Yields r [] r
  | cons {r s : Keystream} {d : Draw} {draws : List Draw} (hd : d.stored = r.peek &&& d.mask)
      (rest : Yields r.advance draws s) : Yields r (d :: draws) s

namespace Yields

variable {r s t : Keystream} {first later draws : List Draw}

theorem append (hf : Yields r first s) (hl : Yields s later t) : Yields r (first ++ later) t := by
  induction hf with
  | nil => exact hl
  | cons hd rest ih => exact .cons hd (ih hl)

theorem eq_of_yields (h : Yields r draws s) :
    s = { r with position := r.position + draws.length } := by
  induction h with
  | nil => rfl
  | @cons r s d draws hd rest ih =>
    rw [ih, List.length_cons]
    simp only [advance, Nat.add_assoc, Nat.add_comm 1]

/-- Draw `k` has word `k` from the start of the draws. -/
theorem stored_eq (h : Yields r draws s) {k : Nat} {d : Draw} (hk : draws[k]? = some d) :
    d.stored = (r.word (r.position + k)).toUInt8 &&& d.mask := by
  induction h generalizing k with
  | nil => cases hk
  | @cons r s e draws hd rest ih =>
    cases k with
    | zero =>
      cases hk
      exact hd
    | succ k =>
      have hw := ih hk
      rwa [advance, Nat.add_assoc, Nat.add_comm 1] at hw

end Yields

end Keystream

namespace Machine

variable {m : Machine}

/-- The random number that the next tick takes. -/
def draw? (m : Machine) : Option Draw :=
  match m.upcoming with
  | some (.random x b) => some ⟨x, b, m.tick.machine.v.get x⟩
  | _ => none

/-- The random numbers that `n` ticks take, or those up to the first tick that fails. -/
def drawsFor (m : Machine) : Nat → List Draw
  | 0 => []
  | n + 1 =>
    m.draw?.toList ++
      match m.tick.result with
      | .ok _ => m.tick.machine.drawsFor n
      | .error _ => []

theorem upcoming_eq_some {i : Instruction} (h : m.upcoming = some i) :
    m.flags.pause = false ∧ m.Faces i := by
  unfold upcoming at h
  split at h
  · rename_i hf
    exact ⟨hf.1, hf.2, h⟩
  · cases h

theorem tick_of_random {x : Register} {b : UInt8} (h : m.upcoming = some (.random x b)) :
    m.tick.machine.v.get x = m.random.peek &&& b ∧
      m.tick.machine.random = m.random.advance := by
  obtain ⟨hp, hf⟩ := upcoming_eq_some h
  rw [machine_tick_of_attempt hp hf.1 hf.attempt_eq, machine_complete]
  refine ⟨?_, rfl⟩
  simp [setRegister, Registers.get_set]

/-- Only `Cxbb` takes a random number. -/
theorem TicksTo.random {s : Step Unit} (h : m.TicksTo s)
    (hu : ∀ x b, m.upcoming ≠ some (.random x b)) : s.machine.random = m.random := by
  cases h with
  | paused | idle | refused => rfl
  | received => simp [receiveKey, advance, setRegister]
  | @completed n notices hp ha hn =>
    rw [machine_complete]
    obtain rfl | ⟨i, hd, hi⟩ := attempt_eq_ok hn
    · rfl
    have hi' : m.upcoming = some i := by
      rw [upcoming, if_pos ⟨hp, ha⟩, hd]
    have hr := random_of_execute hi
    cases i
    case random x b => exact absurd hi' (hu x b)
    all_goals exact hr

theorem yields_tick (m : Machine) : m.random.Yields m.draw?.toList m.tick.machine.random := by
  unfold draw?
  split
  · rename_i x b hu
    obtain ⟨hv, hr⟩ := tick_of_random hu
    rw [hr]
    exact .cons hv (.nil _)
  · rename_i hu
    rw [(ticksTo_tick m).random hu]
    exact .nil _

theorem yields_continueFor {s : Step Unit} (n : Nat) (hs : s.result = .ok ()) :
    s.machine.random.Yields (s.machine.drawsFor n) (continueFor n s).machine.random := by
  induction n generalizing s with
  | zero => exact .nil _
  | succ n ih =>
    rw [continueFor_of_ok n hs]
    refine (yields_tick s.machine).append ?_
    cases ht : s.machine.tick.result with
    | error f =>
      rw [continueFor_of_error n (by simpa using ht)]
      exact .nil _
    | ok u => exact ih (s := s.machine.tick.after s.notices) ht

end Machine

namespace Operation

def drawn (m : Machine) : Operation → List Draw
  | .tick => m.draw?.toList
  | .singlestep => m.unpaused.draw?.toList
  | .multistep n => m.drawsFor n
  | _ => []

def draws (m : Machine) : List Operation → List Draw
  | [] => []
  | op :: ops => op.drawn m ++ draws (op.apply m).machine ops

/-- The operation does not start another stream. -/
def keepsStream : Operation → Bool
  | .reseed _ => false
  | _ => true

theorem yields_apply {op : Operation} (h : op.keepsStream) (m : Machine) :
    m.random.Yields (op.drawn m) (op.apply m).machine.random := by
  cases op with
  | tick => exact m.yields_tick
  | singlestep => exact m.unpaused.yields_tick
  | multistep n => exact Machine.yields_continueFor (s := .ok m ()) n rfl
  | setKey key down =>
    rw [apply, machine_answer, Machine.machine_setKey]
    exact .nil _
  | setV register b =>
    rw [apply, machine_answer, Machine.machine_setV]
    exact .nil _
  | load program =>
    rw [apply, machine_answer, Machine.machine_load]
    exact .nil _
  | setBreak a =>
    rw [apply, Machine.machine_ok, Machine.setBreak_eq]
    exact .nil _
  | tickTimers | reset | unsetBreak | setFlags => exact .nil _
  | reseed => cases h

theorem yields_run {ops : List Operation} (h : ∀ op ∈ ops, op.keepsStream) (m : Machine) :
    m.random.Yields (draws m ops) (run m ops).random := by
  induction ops generalizing m with
  | nil => exact .nil _
  | cons op ops ih =>
    have hfirst := yields_apply (h op (List.mem_cons_self ..)) m
    have hrest := ih (fun o ho => h o (List.mem_cons_of_mem op ho)) (op.apply m).machine
    exact hfirst.append hrest

end Operation

namespace Monitor

def after (t : Monitor) (commands : List Command) : Monitor :=
  commands.foldl (fun t c => (t.run c).monitor) t

/-- Operations reach the machine at work and not the one put aside. -/
theorem after_operate (t : Monitor) (ops : List Operation) :
    t.after (ops.map .operate) = { t with machine := Operation.run t.machine ops } := by
  induction ops generalizing t with
  | nil => rfl
  | cons op ops ih => exact ih (t.run (.operate op)).monitor

end Monitor

namespace Machine

/-- Random numbers are taken by `Cxbb` alone and in order, whatever makes the blocks of the stream
that they are taken from. A copy that was put aside goes on where it was taken. -/
theorem draws_follow_stream (m : Machine) {ops : List Operation} (ho : ∀ op ∈ ops, op.keepsStream) :
    let byte (k : Nat) : UInt8 := (m.random.word (m.random.position + k)).toUInt8
    let taken := Operation.draws m ops
    (∀ k d, taken[k]? = some d → d.stored = byte k &&& d.mask) ∧
      (Operation.run m ops).random =
        { m.random with position := m.random.position + taken.length } ∧
      ∀ (t : Monitor) (aside later : List Operation), (∀ op ∈ later, op.keepsStream) →
        let original := { t with machine := Operation.run m ops }.after (.save :: aside.map .operate)
        let copy := original.after [.restore]
        original.machine = Operation.run (Operation.run m ops) aside ∧
          ∀ k d, (Operation.draws copy.machine later)[k]? = some d →
            d.stored = byte (taken.length + k) &&& d.mask := by
  intro byte taken
  have hrun := Operation.yields_run ho m
  have hend := hrun.eq_of_yields
  refine ⟨fun k d => hrun.stored_eq, hend, ?_⟩
  intro t aside later hl original copy
  have horiginal : original =
      { t with machine := Operation.run (Operation.run m ops) aside
               saved := Operation.run m ops } :=
    Monitor.after_operate _ aside
  have hcopy : copy.machine = Operation.run m ops := congrArg Monitor.saved horiginal
  refine ⟨congrArg Monitor.machine horiginal, ?_⟩
  intro k d hk
  rw [hcopy] at hk
  have hd := (Operation.yields_run hl (Operation.run m ops)).stored_eq hk
  rwa [hend, Nat.add_assoc] at hd

/-- After a machine was given a seed, number `k` that it takes is the low byte of word `k mod 16` in
block `k / 16` of the ChaCha stream of that seed, masked. -/
theorem draws_follow_keystream (m : Machine) (seed : UInt64) {ops : List Operation}
    (ho : ∀ op ∈ ops, op.keepsStream) :
    let byte (k : Nat) : UInt8 :=
      ((ChaCha.block (Keystream.ofSeed seed).key (k / 16)).get (lastDigit k)).toUInt8
    let start := m.reseed seed
    let taken := Operation.draws start ops
    (∀ k d, taken[k]? = some d → d.stored = byte k &&& d.mask) ∧
      (Operation.run start ops).random =
        { Keystream.ofSeed seed with position := taken.length } ∧
      ∀ (t : Monitor) (aside later : List Operation), (∀ op ∈ later, op.keepsStream) →
        let original :=
          { t with machine := Operation.run start ops }.after (.save :: aside.map .operate)
        let copy := original.after [.restore]
        original.machine = Operation.run (Operation.run start ops) aside ∧
          ∀ k d, (Operation.draws copy.machine later)[k]? = some d →
            d.stored = byte (taken.length + k) &&& d.mask := by
  intro byte start taken
  have hposition : start.random.position = 0 := rfl
  have hstream := draws_follow_stream start ho
  simp only [hposition, Nat.zero_add] at hstream
  exact hstream

/-- Every second number is masked away, but taken all the same. After sixteen numbers, a reset, a
key and a program that are refused, and a step, the next number comes from the second block. -/
theorem draws_follow_keystream_over_reset :
    let start := (boot {} (.ofSeed 0)).reseed 7
    let ops : List Operation :=
      [.load [0xc0, 0x0f, 0xc1, 0x00, 0x12, 0x00], .reset, .multistep 24, .reset, .setKey 16 true,
        .load (List.replicate 3585 0), .singlestep, .tick]
    let taken := Operation.draws start ops
    taken.length = 17 ∧
      ∃ d, taken[16]? = some d ∧ d.mask = 0x0f ∧
        d.stored =
          ((ChaCha.block (Keystream.ofSeed 7).key 1).get (lastDigit 0)).toUInt8 &&& 0x0f := by
  intro start ops taken
  have hrun : taken.length = 17 ∧ (taken[16]?).map Draw.mask = some 0x0f := by decide +kernel
  have ho : ∀ op ∈ ops, op.keepsStream = true := by decide
  obtain ⟨d, hd, hm⟩ := Option.map_eq_some_iff.mp hrun.2
  have hstored := (draws_follow_keystream (boot {} (.ofSeed 0)) 7 ho).1 16 d hd
  rw [hm] at hstored
  exact ⟨hrun.1, d, hd, hm, hstored⟩

end Machine

end Chip8
