import Chip8.Proofs.Machine.Operation
import Chip8.Proofs.Machine.Outcome

/-! Machines that are equal but for the random numbers to come. They do the same as long as nothing
is made of a random number. -/
namespace Chip8

/-- What the instruction does is the same for all random numbers. -/
def Instruction.isCertain : Instruction → Bool
  | .random _ b => b == 0
  | _ => true

theorem Instruction.isCertain_of_mask {i : Instruction} (h : ∀ x b, i = .random x b → b = 0) :
    i.isCertain := by
  cases i
  case random x b => exact beq_iff_eq.mpr (h x b rfl)
  all_goals rfl

namespace Machine

variable {m n : Machine} {i : Instruction}

def withRandom (m : Machine) (r : Keystream) : Machine := { m with random := r }

theorem agrees_withRandom (m : Machine) (r : Keystream) : m.Agrees (m.withRandom r) := by
  unfold Agrees withRandom
  simp

/-- Nothing but the random numbers to come is left out of the comparison. -/
theorem agrees_iff : m.Agrees n ↔ ∃ r, n = m.withRandom r := by
  constructor
  · intro h
    refine ⟨n.random, ?_⟩
    obtain ⟨hflags, hmemory, hscreen, hkeypad, htimers, hstack, hpc, hi, hv, hactivity, hcycle,
      hbreakpoints, hprogram⟩ := h
    unfold withRandom
    rw [hflags, hmemory, hscreen, hkeypad, htimers, hstack, hpc, hi, hv, hactivity, hcycle,
      hbreakpoints, hprogram]
  · rintro ⟨r, rfl⟩
    exact agrees_withRandom m r

def upcoming (m : Machine) : Option Instruction :=
  if m.Fetches then Instruction.decode m.nextWord else none

/-- The instructions that `n` ticks execute, or those up to the first tick that fails. -/
def upcomings (m : Machine) : Nat → List Instruction
  | 0 => []
  | n + 1 =>
    m.upcoming.toList ++
      match m.tick.result with
      | .ok _ => m.tick.machine.upcomings n
      | .error _ => []

theorem passIndex_withRandom (m : Machine) (r : Keystream) (x : Register) :
    (m.withRandom r).passIndex x = (m.passIndex x).withRandom r := by
  unfold passIndex withRandom
  dsimp only
  split <;> rfl

theorem execute_withRandom (h : i.isCertain) (m : Machine) (r : Keystream) :
    ∃ r', (m.withRandom r).execute i = (m.execute i).map (·.withRandom r') := by
  cases i
  case random x b =>
    -- the number is taken, but masked away
    have hb : b = 0 := beq_iff_eq.mp h
    refine ⟨r.advance, ?_⟩
    simp [hb, execute, withRandom, advance, setRegister, Except.map]
  case ret =>
    refine ⟨r, ?_⟩
    have hs : (m.withRandom r).stack = m.stack := rfl
    simp only [execute, hs]
    cases m.stack <;> rfl
  case call a =>
    refine ⟨r, ?_⟩
    have hs : (m.withRandom r).stack = m.stack := rfl
    simp only [execute, hs]
    split <;> rfl
  case store x =>
    exact ⟨r, congrArg Except.ok (passIndex_withRandom
      { m.advance with memory := m.memory.writeBytes m.i.toNat (m.v.upTo x) } r x)⟩
  case fetch x =>
    exact ⟨r, congrArg Except.ok (passIndex_withRandom
      { m.advance with v := m.v.load (m.memory.readBytes m.i.toNat (x.val + 1)) } r x)⟩
  all_goals exact ⟨r, rfl⟩

theorem attempt_withRandom (h : ∀ i, Instruction.decode m.nextWord = some i → i.isCertain)
    (r : Keystream) : ∃ r', (m.withRandom r).attempt = m.attempt.map (·.withRandom r') := by
  have hw : (m.withRandom r).nextWord = m.nextWord := rfl
  unfold attempt
  rw [hw]
  cases hd : Instruction.decode m.nextWord with
  | none =>
    have hl : (m.withRandom r).flags.lenient = m.flags.lenient := rfl
    refine ⟨r, ?_⟩
    dsimp only
    rw [hl]
    cases m.flags.lenient <;> rfl
  | some i => exact execute_withRandom (h i hd) m r

theorem outcome_withRandom
    (h : m.activity = .running → ∀ i, Instruction.decode m.nextWord = some i → i.isCertain)
    (r : Keystream) :
    ∃ r', (m.withRandom r).outcome = m.outcome.map (Option.map (·.withRandom r')) := by
  cases ha : m.activity with
  | running =>
    obtain ⟨r', hr⟩ := attempt_withRandom (h ha) r
    refine ⟨r', outcome_map rfl rfl (fun _ => hr) fun x key hx => ?_⟩
    rw [ha] at hx
    cases hx
  | awaitingKey x =>
    refine ⟨r, outcome_map rfl rfl (fun hr => ?_) fun _ _ _ => rfl⟩
    rw [ha] at hr
    cases hr

namespace Agrees

/-- A tick that makes nothing of a random number does the same to both machines. -/
theorem tick (h : m.Agrees n) (hc : ∀ i ∈ m.upcoming, i.isCertain) :
    m.tick.machine.Agrees n.tick.machine ∧ m.tick.result = n.tick.result := by
  obtain ⟨r, rfl⟩ := agrees_iff.mp h
  cases hp : m.flags.pause with
  | true =>
    have hr : (m.withRandom r).flags.pause = true := hp
    rw [tick_of_pause hr, tick_of_pause hp]
    exact ⟨h, rfl⟩
  | false =>
    have hr : (m.withRandom r).flags.pause = false := hp
    have hd : m.activity = .running →
        ∀ i, Instruction.decode m.nextWord = some i → i.isCertain := by
      intro ha i hi
      refine hc i ?_
      rw [upcoming, if_pos ⟨hp, ha⟩]
      exact hi
    obtain ⟨r', ho⟩ := outcome_withRandom hd r
    rw [(tick_eq_settle hr).1, (tick_eq_settle hr).2, (tick_eq_settle hp).1,
      (tick_eq_settle hp).2, ho]
    cases m.outcome with
    | error f => exact ⟨h, rfl⟩
    | ok o =>
      cases o with
      | none => exact ⟨h, rfl⟩
      | some k =>
        constructor
        · simp only [Except.map, Option.map_some, settle, machine_complete]
          exact agrees_withRandom _ r'
        · simp only [Except.map, Option.map_some, settle, result_complete]
          rfl

theorem singlestep (h : m.Agrees n) (hc : ∀ i ∈ m.unpaused.upcoming, i.isCertain) :
    m.singlestep.machine.Agrees n.singlestep.machine ∧
      m.singlestep.result = n.singlestep.result := by
  obtain ⟨r, rfl⟩ := agrees_iff.mp h
  obtain ⟨hm, hr⟩ := (agrees_withRandom m.unpaused r).tick hc
  obtain ⟨r', hr'⟩ := agrees_iff.mp hm
  refine ⟨agrees_iff.mpr ⟨r', ?_⟩, hr⟩
  exact congrArg (fun k : Machine => { k with flags.pause := true }) hr'

theorem continueFor {s t : Step Unit} {k : Nat} (hm : s.machine.Agrees t.machine)
    (hr : s.result = t.result)
    (hc : s.result = .ok () → ∀ i ∈ s.machine.upcomings k, i.isCertain) :
    (continueFor k s).machine.Agrees (continueFor k t).machine ∧
      (continueFor k s).result = (continueFor k t).result := by
  induction k generalizing s t with
  | zero => exact ⟨hm, hr⟩
  | succ k ih =>
    cases hs : s.result with
    | error f =>
      rw [continueFor_of_error (k + 1) hs, continueFor_of_error (k + 1) (hr.symm.trans hs)]
      exact ⟨hm, hr⟩
    | ok u =>
      have hc' := hc hs
      rw [upcomings] at hc'
      have hfirst : ∀ i ∈ s.machine.upcoming, i.isCertain := fun i hi =>
        hc' i (List.mem_append_left _ (Option.mem_toList.mpr hi))
      obtain ⟨htm, htr⟩ := hm.tick hfirst
      rw [continueFor_of_ok k hs, continueFor_of_ok k (hr.symm.trans hs)]
      refine ih htm htr fun ht i hi => hc' i (List.mem_append_right _ ?_)
      rw [Step.result_after] at ht
      rw [ht]
      exact hi

end Agrees

end Machine

namespace Operation

def executes (m : Machine) : Operation → List Instruction
  | .tick => m.upcoming.toList
  | .singlestep => m.unpaused.upcoming.toList
  | .multistep n => m.upcomings n
  | _ => []

def executed (m : Machine) : List Operation → List Instruction
  | [] => []
  | op :: ops => op.executes m ++ executed (op.apply m).machine ops

theorem executed_append (m : Machine) (ops later : List Operation) :
    executed m (ops ++ later) = executed m ops ++ executed (run m ops) later := by
  induction ops generalizing m with
  | nil => rfl
  | cons op ops ih =>
    rw [List.cons_append, executed, executed, ih, List.append_assoc]
    rfl

end Operation

namespace Machine.Agrees

variable {m n : Machine}

theorem apply {op : Operation} (h : m.Agrees n) (hc : ∀ i ∈ op.executes m, i.isCertain) :
    (op.apply m).machine.Agrees (op.apply n).machine ∧
      (op.apply m).result = (op.apply n).result := by
  cases op with
  | tick =>
    obtain ⟨hm, hr⟩ := h.tick fun i hi => hc i (Option.mem_toList.mpr hi)
    exact ⟨hm, congrArg (Except.map fun _ => Operation.Answer.done) hr⟩
  | singlestep =>
    obtain ⟨hm, hr⟩ := h.singlestep fun i hi => hc i (Option.mem_toList.mpr hi)
    exact ⟨hm, congrArg (Except.map fun _ => Operation.Answer.done) hr⟩
  | multistep k =>
    obtain ⟨hm, hr⟩ := continueFor (s := .ok m ()) (t := .ok n ()) h rfl fun _ => hc
    exact ⟨hm, congrArg (Except.map fun _ => Operation.Answer.done) hr⟩
  | setKey key down =>
    obtain ⟨r, rfl⟩ := agrees_iff.mp h
    rcases Nat.lt_or_ge key 16 with hk | hk
    · rw [Operation.apply, Operation.apply, setKey_of_lt hk, setKey_of_lt hk]
      exact ⟨agrees_withRandom _ r, rfl⟩
    · rw [Operation.apply, Operation.apply, setKey_of_le hk, setKey_of_le hk]
      exact ⟨h, rfl⟩
  | setV register b =>
    obtain ⟨r, rfl⟩ := agrees_iff.mp h
    rcases Nat.lt_or_ge register 16 with hk | hk
    · rw [Operation.apply, Operation.apply, setV_of_lt hk, setV_of_lt hk]
      exact ⟨agrees_withRandom _ r, rfl⟩
    · rw [Operation.apply, Operation.apply, setV_of_le hk, setV_of_le hk]
      exact ⟨h, rfl⟩
  | load program =>
    obtain ⟨r, rfl⟩ := agrees_iff.mp h
    rcases Nat.lt_or_ge Region.program.size program.length with hp | hp
    · rw [Operation.apply, Operation.apply, load_of_lt hp, load_of_lt hp]
      exact ⟨h, rfl⟩
    · rw [Operation.apply, Operation.apply, load_of_le hp, load_of_le hp]
      exact ⟨agrees_withRandom _ r, rfl⟩
  | setBreak a =>
    obtain ⟨r, rfl⟩ := agrees_iff.mp h
    have hb : (m.withRandom r).setBreak a = (m.setBreak a).withRandom r := by
      unfold setBreak withRandom
      dsimp only
      split <;> rfl
    refine ⟨agrees_iff.mpr ⟨r, ?_⟩, rfl⟩
    exact hb
  | tickTimers | reset | unsetBreak | reseed | setFlags =>
    obtain ⟨r, rfl⟩ := agrees_iff.mp h
    exact ⟨agrees_iff.mpr ⟨_, rfl⟩, rfl⟩

theorem run {ops : List Operation} (h : m.Agrees n)
    (hc : ∀ i ∈ Operation.executed m ops, i.isCertain) :
    (Operation.run m ops).Agrees (Operation.run n ops) ∧
      Operation.answers m ops = Operation.answers n ops := by
  induction ops generalizing m n with
  | nil => exact ⟨h, rfl⟩
  | cons op ops ih =>
    rw [Operation.executed] at hc
    obtain ⟨hm, hr⟩ := h.apply fun i hi => hc i (List.mem_append_left _ hi)
    obtain ⟨hrun, hans⟩ := ih hm fun i hi => hc i (List.mem_append_right _ hi)
    refine ⟨hrun, ?_⟩
    rw [Operation.answers, Operation.answers, hr, hans]

/-- Machines that agree do so at every point of a run. -/
theorem run_earlier {ops earlier : List Operation} (h : m.Agrees n)
    (hc : ∀ i ∈ Operation.executed m ops, i.isCertain) (he : earlier <+: ops) :
    (Operation.run m earlier).Agrees (Operation.run n earlier) := by
  obtain ⟨later, rfl⟩ := he
  rw [Operation.executed_append] at hc
  exact (h.run fun i hi => hc i (List.mem_append_left _ hi)).1

end Machine.Agrees

namespace Machine

/-- As long as no random number is taken but to be masked away, machines that agree answer the same
to every operation and agree after it. -/
theorem agreement_is_congruence {m n : Machine} {ops : List Operation} (h : m.Agrees n)
    (hc : ∀ x b, .random x b ∈ Operation.executed m ops → b = 0) :
    Operation.answers m ops = Operation.answers n ops ∧
      (∀ earlier, earlier <+: ops →
        (Operation.run m earlier).Agrees (Operation.run n earlier)) ∧
      ∀ seed, Operation.answers m ops = Operation.answers (m.reseed seed) ops ∧
        ∀ earlier, earlier <+: ops →
          (Operation.run m earlier).Agrees (Operation.run (m.reseed seed) earlier) := by
  have hcertain : ∀ i ∈ Operation.executed m ops, i.isCertain := by
    intro i hi
    apply Instruction.isCertain_of_mask
    rintro x b rfl
    exact hc x b hi
  have hseed (seed : UInt64) : m.Agrees (m.reseed seed) := agrees_withRandom m (.ofSeed seed)
  refine ⟨(h.run hcertain).2, fun _ => h.run_earlier hcertain, fun seed => ⟨?_, ?_⟩⟩
  · exact ((hseed seed).run hcertain).2
  · exact fun _ => (hseed seed).run_earlier hcertain

/-- Two machines with different random numbers to come. The program takes one and masks it away,
then waits for a key, and after that there is no instruction. -/
theorem agreement_is_congruence_of_masked_draw :
    let m := boot {} (.ofSeed 1)
    let n := boot {} (.ofSeed 2)
    let ops : List Operation :=
      [.load [0xc3, 0x00, 0xf4, 0x0a, 0xff, 0xff], .reset, .multistep 3, .setKey 7 true,
        .setKey 7 false, .tick, .tick]
    m.random ≠ n.random ∧ .random 3 0 ∈ Operation.executed m ops ∧
      Operation.answers n ops =
        [.ok .done, .ok .done, .ok .done, .ok (.changed true), .ok (.changed true), .ok .done,
          .error (.unrecognized 0xffff 0x204)] ∧
      (Operation.run m ops).Agrees (Operation.run n ops) := by
  intro m n ops
  have hkeys : Keystream.keyOfSeed 1 ≠ Keystream.keyOfSeed 2 := by decide +kernel
  have hrandom : m.random ≠ n.random := fun h => hkeys (congrArg Keystream.key h)
  have hrun : Operation.executed m ops = [.random 3 0, .awaitKey 4] ∧
      Operation.answers m ops =
        [.ok .done, .ok .done, .ok .done, .ok (.changed true), .ok (.changed true), .ok .done,
          .error (.unrecognized 0xffff 0x204)] := by decide +kernel
  obtain ⟨hexecuted, hanswers⟩ := hrun
  have hc : ∀ x b, .random x b ∈ Operation.executed m ops → b = 0 := by
    intro x b hb
    rw [hexecuted, List.mem_cons, List.mem_singleton] at hb
    obtain hb | hb := hb
    · cases hb
      rfl
    · cases hb
  obtain ⟨hsame, hagrees, -⟩ := agreement_is_congruence (m := m) (n := n)
    (agrees_withRandom m (.ofSeed 2)) hc
  refine ⟨hrandom, ?_, hsame.symm.trans hanswers, hagrees ops (List.prefix_refl ops)⟩
  rw [hexecuted]
  exact List.mem_cons_self

end Machine

end Chip8
