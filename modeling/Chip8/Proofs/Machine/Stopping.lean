import Chip8.Proofs.Machine.Invariant
import Chip8.Proofs.Machine.Outcome

/-! Where a machine stops. The breakpoints are those that were set last, a tick stops at one exactly
if it counts and comes to it, and a machine that stopped stays as it is. -/
namespace Chip8

theorem Machine.breakpoints_afterTicks (m : Machine) (k : Nat) :
    (m.afterTicks k).breakpoints = m.breakpoints := by
  induction k with
  | zero => rfl
  | succ k ih => exact (ticksTo_tick (m.afterTicks k)).breakpoints.trans ih

namespace Operation

def concerns (a : UInt16) (op : Operation) : Bool := op = .setBreak a ∨ op = .unsetBreak a

variable {m : Machine} {op : Operation}

theorem breakpoints_apply (h : ∀ a, op.concerns a = false) :
    (op.apply m).machine.breakpoints = m.breakpoints := by
  cases op with
  | tick => exact (Machine.ticksTo_tick m).breakpoints
  | singlestep => exact (Machine.ticksTo_tick m.unpaused).breakpoints
  | multistep n =>
    obtain ⟨k, -, hk⟩ := Machine.exists_afterTicks_eq_multistep m n
    rw [apply, machine_answer, hk, Machine.breakpoints_afterTicks]
  | setKey key down => rw [apply, machine_answer, Machine.machine_setKey]
  | setV register b => rw [apply, machine_answer, Machine.machine_setV]
  | load program => rw [apply, machine_answer, Machine.machine_load]
  | tickTimers | reset | reseed | setFlags => rfl
  | setBreak a | unsetBreak a =>
    have ha := h a
    simp [concerns] at ha

/-- One operation adds the breakpoint that it sets, takes out the one that it unsets, and leaves all
others. -/
theorem mem_breakpoints_apply (h : m.breakpoints.Nodup) (a : UInt16) :
    a ∈ (op.apply m).machine.breakpoints ↔
      op = .setBreak a ∨ a ∈ m.breakpoints ∧ op ≠ .unsetBreak a := by
  cases op with
  | setBreak b =>
    rw [apply, Machine.machine_ok, Machine.mem_setBreak]
    simp [eq_comm]
  | unsetBreak b =>
    rw [apply, Machine.machine_ok, Machine.mem_unsetBreak h]
    simp [and_comm, eq_comm]
  | tick | singlestep | multistep | tickTimers | setKey | setV | load | reset | reseed | setFlags =>
    rw [breakpoints_apply fun b => by simp [concerns]]
    simp

/-- A breakpoint is there exactly if the last that was done about it was to set it. -/
theorem mem_breakpoints_run (random : Keystream) (ops : List Operation) (a : UInt16) :
    a ∈ (run (.boot {} random) ops).breakpoints ↔
      (ops.filter (concerns a)).getLast? = some (.setBreak a) := by
  induction ops using List.reverseRecOn with
  | nil => simp [run, Machine.boot]
  | append_singleton ops op ih =>
    have hnodup := (Machine.Reachable.bounded ⟨random, ops, rfl⟩).breakpoints
    rw [run_concat, mem_breakpoints_apply hnodup, ih, List.filter_append, List.getLast?_append]
    by_cases hs : op = .setBreak a
    · simp [hs, concerns]
    · by_cases hu : op = .unsetBreak a
      · simp [hu, concerns]
      · simp [hs, hu, concerns]

/-- A pause lasts until a flag clears it. -/
theorem pause_apply (hp : m.flags.pause = true)
    (hop : ∀ flags, op = .setFlags flags → flags.pause = true) :
    (op.apply m).machine.flags.pause = true := by
  cases op with
  | tick => rwa [apply, machine_answer, Machine.tick_of_pause hp]
  | singlestep => rfl
  | multistep n =>
    obtain ⟨k, -, hk⟩ := Machine.exists_afterTicks_eq_multistep m n
    rwa [apply, machine_answer, hk, Machine.afterTicks_of_pause hp]
  | setKey key down => rwa [apply, machine_answer, Machine.machine_setKey]
  | setV register b => rwa [apply, machine_answer, Machine.machine_setV]
  | load program => rwa [apply, machine_answer, Machine.machine_load]
  | setBreak a => rwa [apply, Machine.machine_ok, Machine.setBreak_eq]
  | tickTimers | reset | unsetBreak | reseed => exact hp
  | setFlags flags => exact hop flags rfl

theorem pause_run {ops : List Operation} (hp : m.flags.pause = true)
    (hops : ∀ flags, .setFlags flags ∈ ops → flags.pause = true) :
    (run m ops).flags.pause = true := by
  induction ops generalizing m with
  | nil => exact hp
  | cons op ops ih =>
    refine ih (m := (op.apply m).machine) (pause_apply hp ?_) ?_
    · rintro flags rfl
      exact hops flags (List.mem_cons_self ..)
    · intro flags hf
      exact hops flags (List.mem_cons_of_mem op hf)

end Operation

namespace Machine

variable {m : Machine}

/-- The next tick counts: it executes the instruction at `pc`, passes over the word there, or goes
on with a key. -/
inductive Counts (m : Machine) : Prop where
  | executes {i : Instruction} {n : Machine} (hf : m.Fetches)
      (hd : Instruction.decode m.nextWord = some i) (he : m.execute i = .ok n)
  | passes (hf : m.Fetches) (hd : Instruction.decode m.nextWord = none)
      (hl : m.flags.lenient = true)
  | receives {x : Register} {key : Key} (hp : m.flags.pause = false)
      (ha : m.activity = .awaitingKey x) (hl : m.keypad.latch = some key)

def Stops (m : Machine) : Prop :=
  ∃ address next, m.tick.result = .error (.breakpoint address next)

/-- A tick counts exactly if something comes of it. -/
theorem counts_iff : m.Counts ↔ m.flags.pause = false ∧ ∃ n, m.outcome = .ok (some n) := by
  constructor
  · intro h
    cases h with
    | @executes i n hf hd he =>
      refine ⟨hf.1, n, ?_⟩
      rw [outcome_of_running hf.2, attempt, hd]
      simp only [he, Except.map]
    | passes hf hd hl =>
      refine ⟨hf.1, m.advance, ?_⟩
      rw [outcome_of_running hf.2, attempt, hd]
      simp only [hl, if_true, Except.map]
    | @receives x key hp ha hl =>
      refine ⟨hp, m.receiveKey x key, ?_⟩
      rw [outcome_of_awaitingKey ha, hl, Option.map_some]
  · rintro ⟨hp, n, hn⟩
    cases ha : m.activity with
    | running =>
      rw [outcome_of_running ha, attempt] at hn
      cases hd : Instruction.decode m.nextWord with
      | none =>
        cases hl : m.flags.lenient with
        | true => exact .passes ⟨hp, ha⟩ hd hl
        | false => simp [hd, hl, Except.map] at hn
      | some i =>
        cases he : m.execute i with
        | ok k => exact .executes ⟨hp, ha⟩ hd he
        | error f => simp [hd, he, Except.map] at hn
    | awaitingKey x =>
      rw [outcome_of_awaitingKey ha] at hn
      obtain ⟨key, hl, -⟩ := Option.map_eq_some_iff.mp (Except.ok.inj hn)
      exact .receives hp ha hl

/-- A tick either counts, and stops if it comes to a breakpoint, or leaves the machine as it is. -/
theorem tick_cases (m : Machine) :
    (m.Counts ∧ ∃ n, SameSetup m n ∧ m.tick.machine = (n.complete #[]).machine ∧
      m.tick.result = (n.complete #[]).result) ∨
    (¬ m.Counts ∧ m.tick.machine = m ∧
      ∀ f, m.tick.result = .error f → f.isBreakpoint = false) := by
  rw [counts_iff]
  cases hp : m.flags.pause with
  | true =>
    rw [tick_of_pause hp]
    exact Or.inr ⟨by simp, rfl, nofun⟩
  | false =>
    obtain ⟨hmachine, hresult⟩ := tick_eq_settle hp
    rw [hmachine, hresult]
    cases ho : m.outcome with
    | error f =>
      refine Or.inr ⟨by simp, rfl, ?_⟩
      rintro _ ⟨⟩
      exact isBreakpoint_of_outcome ho
    | ok o =>
      cases o with
      | none => exact Or.inr ⟨by simp, rfl, nofun⟩
      | some n => exact Or.inl ⟨by simp, n, sameSetup_of_outcome ho, rfl, rfl⟩

theorem lt_cycle_tick_iff (m : Machine) : m.cycle < m.tick.machine.cycle ↔ m.Counts := by
  rcases tick_cases m with ⟨hc, n, hn, hmachine, -⟩ | ⟨hc, hmachine, -⟩
  · have hcycle : m.tick.machine.cycle = m.cycle + 1 := by
      rw [hmachine, machine_complete, hn.cycle]
    exact ⟨fun _ => hc, fun _ => by omega⟩
  · rw [hmachine]
    exact ⟨fun h => absurd h (Nat.lt_irrefl _), fun h => absurd h hc⟩

/-- A tick stops exactly if it counts and comes to a breakpoint, and tells the address and the word
there as it left them. -/
theorem tick_eq_breakpoint_iff (m : Machine) (address next : UInt16) :
    m.tick.result = .error (.breakpoint address next) ↔
      m.Counts ∧ addressWord m.tick.machine.pc ∈ m.breakpoints ∧
        address = addressWord m.tick.machine.pc ∧ next = m.tick.machine.nextWord := by
  rcases tick_cases m with ⟨hc, n, hn, hmachine, hresult⟩ | ⟨hc, -, hresult⟩
  · have hpc : m.tick.machine.pc = n.pc := by rw [hmachine, machine_complete]
    have hnext : m.tick.machine.nextWord = n.nextWord := by
      rw [hmachine, machine_complete]
      rfl
    rw [hresult, result_complete, hpc, hnext, hn.breakpoints]
    split
    · rename_i hb
      simp [hc, hb, eq_comm]
    · rename_i hb
      simp [hb]
  · constructor
    · intro h
      cases hresult _ h
    · exact fun h => absurd h.1 hc

theorem Stops.pause (h : m.Stops) : m.tick.machine.flags.pause = true := by
  obtain ⟨address, next, hr⟩ := h
  exact (ticksTo_tick m).pause.2 _ hr rfl

theorem pause_of_not_stops (h : ¬ m.Stops) : m.tick.machine.flags.pause = m.flags.pause := by
  rcases tick_cases m with ⟨-, n, -, -, hresult⟩ | ⟨-, hmachine, -⟩
  · rw [result_complete] at hresult
    split at hresult
    · exact absurd ⟨_, _, hresult⟩ h
    · exact (ticksTo_tick m).pause.1 hresult
  · rw [hmachine]

/-- A tick stops exactly if it counts and comes to one of the breakpoints that were set and not
unset since. It pauses the machine, which then stays as it is until the pause is cleared. -/
theorem breakpoints_stop_exactly {m : Machine} {random : Keystream} {ops : List Operation}
    (hm : Operation.run (.boot {} random) ops = m) :
    m.breakpoints.Nodup ∧
    (∀ a, a ∈ m.breakpoints ↔ (ops.filter (Operation.concerns a)).getLast? = some (.setBreak a)) ∧
    (∀ op : Operation, (∀ a, op.concerns a = false) →
      (op.apply m).machine.breakpoints = m.breakpoints) ∧
    (∀ address next, m.tick.result = .error (.breakpoint address next) ↔
      m.cycle < m.tick.machine.cycle ∧ addressWord m.tick.machine.pc ∈ m.breakpoints ∧
        address = addressWord m.tick.machine.pc ∧
        next = m.tick.machine.memory.word m.tick.machine.pc.toNat) ∧
    (m.cycle < m.tick.machine.cycle ↔ m.Counts) ∧
    (m.Stops → m.tick.machine.flags.pause = true) ∧
    (¬ m.Stops → m.tick.machine.flags.pause = m.flags.pause) ∧
    (m.Stops → ∀ k, m.tick.machine.afterTicks k = m.tick.machine) ∧
    (m.Stops → ∀ later : List Operation,
      (∀ flags, .setFlags flags ∈ later → flags.pause = true) →
        let n := Operation.run m.tick.machine later
        n.tick = .ok n ()) := by
  have hbounded : m.Bounded := Reachable.bounded ⟨random, ops, hm⟩
  refine ⟨hbounded.breakpoints, fun a => ?_, fun op => Operation.breakpoints_apply, ?_,
    lt_cycle_tick_iff m, Stops.pause, pause_of_not_stops,
    fun h k => afterTicks_of_pause h.pause k, ?_⟩
  · rw [← hm]
    exact Operation.mem_breakpoints_run random ops a
  · intro address next
    rw [lt_cycle_tick_iff]
    exact tick_eq_breakpoint_iff m address next
  · intro h later hlater
    exact tick_of_pause (Operation.pause_run h.pause hlater)

/-- A store puts the word `1234` right behind itself, where the last of three breakpoints still
stands. The tick tells the new word, and a single step and a load do not wake the machine. -/
theorem breakpoints_stop_behind_store :
    let ops : List Operation :=
      [.load [0x60, 0x12, 0x61, 0x34, 0xa2, 0x08, 0xf1, 0x55], .reset, .setBreak 0x208,
        .setBreak 0x300, .setBreak 0x20a, .setBreak 0x208, .unsetBreak 0x300, .multistep 3]
    let later : List Operation := [.tick, .singlestep, .tickTimers, .load [0x00, 0xe0]]
    let m := Operation.run (.boot {} (.ofSeed 0)) ops
    let n := Operation.run m.tick.machine later
    0x300 ∉ m.breakpoints ∧ 0x208 ∈ m.breakpoints ∧
      m.tick.result = .error (.breakpoint 0x208 0x1234) ∧ n.cycle = 5 ∧ n.tick = .ok n () := by
  intro ops later m n
  have hm : Operation.run (.boot {} (.ofSeed 0)) ops = m := rfl
  obtain ⟨-, hmem, -, hstop, -, -, -, -, hstay⟩ := breakpoints_stop_exactly hm
  have hrun : m.cycle < m.tick.machine.cycle ∧
      m.tick.machine.pc = 0x208 ∧ m.tick.machine.memory.word 0x208 = 0x1234 ∧ n.cycle = 5 := by
    decide +kernel
  obtain ⟨hcycle, hpc, hword, hn⟩ := hrun
  have hset : 0x208 ∈ m.breakpoints := (hmem 0x208).mpr (by decide)
  have hunset : 0x300 ∉ m.breakpoints := fun h => absurd ((hmem 0x300).mp h) (by decide)
  have hr : m.tick.result = .error (.breakpoint 0x208 0x1234) := by
    refine (hstop 0x208 0x1234).mpr ⟨hcycle, ?_, ?_, ?_⟩
    · rw [hpc]
      exact hset
    · rw [hpc]
      rfl
    · rw [hpc]
      exact hword.symm
  refine ⟨hunset, hset, hr, hn, hstay ⟨_, _, hr⟩ later ?_⟩
  intro flags hf
  simp [later] at hf

end Machine

end Chip8
