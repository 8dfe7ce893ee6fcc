import Chip8.Proofs.Machine.Operation
import Chip8.Proofs.Machine.Outcome
import Chip8.Proofs.Memory

/-! Which parts of a machine an instruction can change. Each part has instructions of its own, and
all others leave it as it is. -/
namespace Chip8

namespace Instruction

/-- How many bytes from `I` on an instruction writes. -/
def stored : Instruction → Nat
  | .decimalDigits _ => 3
  | .store x => x.val + 1
  | _ => 0

def Sets : Instruction → Register → Prop
  | .setByte x _, r | .addByte x _, r | .copy x _, r | .random x _, r | .getDelay x, r => r = x
  | .or x _, r | .and x _, r | .xor x _, r | .add x _, r | .sub x _, r | .shiftRight x _, r
  | .subFrom x _, r | .shiftLeft x _, r => r = x ∨ r = vF
  | .draw _ _ _, r => r = vF
  | .fetch x, r => r.val ≤ x.val
  | _, _ => False

end Instruction

namespace Registers

variable {v : Registers} {x y r : Register} {a b : UInt8}

theorem eq_of_get_set (h : (v.set x a).get r ≠ v.get r) : r = x := by
  by_contra hr
  rw [get_set, if_neg (Ne.symm hr)] at h
  exact h rfl

theorem eq_or_eq_of_get_set_set (h : ((v.set x a).set y b).get r ≠ v.get r) : r = x ∨ r = y := by
  by_cases hy : r = y
  · exact Or.inr hy
  · rw [get_set, if_neg (Ne.symm hy)] at h
    exact Or.inl (eq_of_get_set h)

theorem lt_of_get_load {bytes : List UInt8} (h : (v.load bytes).get r ≠ v.get r) :
    r.val < bytes.length := by
  by_contra hr
  rw [get_load, List.getD_eq_default _ _ (Nat.not_lt.mp hr)] at h
  exact h rfl

theorem length_upTo (v : Registers) (x : Register) : (v.upTo x).length = x.val + 1 := by
  have hx := x.isLt
  simp only [upTo, toList, List.length_take, Vector.length_toList]
  omega

end Registers

namespace Machine

variable {m n : Machine} {i : Instruction}

def randomAfter (m : Machine) : Instruction → Keystream
  | .random _ _ => m.random.advance
  | _ => m.random

/-- The machine `m` with all that an instruction may touch taken from `n`. -/
def overlaid (m n : Machine) : Instruction → Machine
  | .clear => { m with pc := n.pc, screen := n.screen }
  | .ret | .call _ => { m with pc := n.pc, stack := n.stack }
  | .setIndex _ | .addIndex _ | .pointAtGlyph _ => { m with pc := n.pc, i := n.i }
  | .random _ _ => { m with pc := n.pc, v := n.v, random := m.random.advance }
  | .draw _ _ _ => { m with pc := n.pc, v := n.v, screen := n.screen }
  | .awaitKey _ => { m with keypad := n.keypad, activity := n.activity }
  | .setDelay _ => { m with pc := n.pc, timers.delay := n.timers.delay }
  | .setSound _ => { m with pc := n.pc, timers.sound := n.timers.sound }
  | .decimalDigits _ => { m with pc := n.pc, memory := n.memory }
  | .store _ => { m with pc := n.pc, memory := n.memory, i := n.i }
  | .fetch _ => { m with pc := n.pc, v := n.v, i := n.i }
  | .jump _ | .jumpFrom _ | .skipIfByte _ _ | .skipUnlessByte _ _ | .skipIfEqual _ _
  | .skipUnlessEqual _ _ | .skipIfKey _ | .skipUnlessKey _ => { m with pc := n.pc }
  | _ => { m with pc := n.pc, v := n.v }

/-- What an instruction does not touch is as before. -/
theorem eq_overlaid_of_execute (h : m.execute i = .ok n) : n = m.overlaid n i := by
  cases i
  case ret =>
    cases hs : m.stack with
    | nil => simp [execute, hs] at h
    | cons a rest =>
      simp only [execute, hs, Except.ok.injEq] at h
      subst h
      rfl
  case call a =>
    simp only [execute] at h
    split at h <;> cases h
    rfl
  case store x | fetch x =>
    simp only [execute, Except.ok.injEq] at h
    rw [passIndex_eq] at h
    subst h
    rfl
  all_goals
    cases h
    rfl

theorem random_of_execute (h : m.execute i = .ok n) : n.random = m.randomAfter i := by
  have hr := congrArg random (eq_overlaid_of_execute h)
  cases i
  all_goals exact hr

theorem stack_of_execute (h : m.execute i = .ok n) (hn : n.stack ≠ m.stack) :
    (∃ a, i = .call a) ∨ i = .ret := by
  have hs := congrArg stack (eq_overlaid_of_execute h)
  cases i
  case call a => exact Or.inl ⟨a, rfl⟩
  case ret => exact Or.inr rfl
  all_goals exact absurd hs hn

theorem latch_of_execute (h : m.execute i = .ok n) (hn : n.keypad.latch ≠ m.keypad.latch) :
    ∃ x, i = .awaitKey x := by
  have hk := congrArg (fun k => k.keypad.latch) (eq_overlaid_of_execute h)
  cases i
  case awaitKey x => exact ⟨x, rfl⟩
  all_goals exact absurd hk hn

theorem activity_of_execute (h : m.execute i = .ok n) (hn : n.activity ≠ m.activity) :
    ∃ x, i = .awaitKey x := by
  have ha := congrArg activity (eq_overlaid_of_execute h)
  cases i
  case awaitKey x => exact ⟨x, rfl⟩
  all_goals exact absurd ha hn

theorem screen_of_execute (h : m.execute i = .ok n) (hn : n.screen ≠ m.screen) :
    i = .clear ∨ ∃ x y k, i = .draw x y k := by
  have hs := congrArg screen (eq_overlaid_of_execute h)
  cases i
  case clear => exact Or.inl rfl
  case draw x y k => exact Or.inr ⟨x, y, k, rfl⟩
  all_goals exact absurd hs hn

theorem delay_of_execute (h : m.execute i = .ok n) (hn : n.timers.delay ≠ m.timers.delay) :
    ∃ x, i = .setDelay x := by
  have ht := congrArg (fun k => k.timers.delay) (eq_overlaid_of_execute h)
  cases i
  case setDelay x => exact ⟨x, rfl⟩
  all_goals exact absurd ht hn

theorem sound_of_execute (h : m.execute i = .ok n) (hn : n.timers.sound ≠ m.timers.sound) :
    ∃ x, i = .setSound x := by
  have ht := congrArg (fun k => k.timers.sound) (eq_overlaid_of_execute h)
  cases i
  case setSound x => exact ⟨x, rfl⟩
  all_goals exact absurd ht hn

theorem dmaInc_of_passIndex {x : Register} (h : (m.passIndex x).i ≠ m.i) :
    m.flags.dialect.dmaInc = true := by
  unfold passIndex at h
  split at h
  · assumption
  · exact absurd rfl h

theorem index_of_execute (h : m.execute i = .ok n) (hn : n.i ≠ m.i) :
    (∃ a, i = .setIndex a) ∨ (∃ x, i = .addIndex x ∨ i = .pointAtGlyph x) ∨
      m.flags.dialect.dmaInc = true ∧ ∃ x, i = .store x ∨ i = .fetch x := by
  have hi := congrArg Machine.i (eq_overlaid_of_execute h)
  cases i
  case setIndex a => exact Or.inl ⟨a, rfl⟩
  case addIndex x => exact Or.inr (Or.inl ⟨x, Or.inl rfl⟩)
  case pointAtGlyph x => exact Or.inr (Or.inl ⟨x, Or.inr rfl⟩)
  case store x =>
    cases h
    have hd := dmaInc_of_passIndex hn
    exact Or.inr (Or.inr ⟨hd, x, Or.inl rfl⟩)
  case fetch x =>
    cases h
    have hd := dmaInc_of_passIndex hn
    exact Or.inr (Or.inr ⟨hd, x, Or.inr rfl⟩)
  all_goals exact absurd hi hn

theorem memory_of_execute (h : m.execute i = .ok n) {a : Nat} (ha : a < 4096)
    (hn : n.memory.read a ≠ m.memory.read a) : ∃ k < i.stored, a = (m.i.toNat + k) % 4096 := by
  have hm := congrArg memory (eq_overlaid_of_execute h)
  cases i
  case decimalDigits x =>
    cases h
    exact Memory.exists_of_read_writeBytes ha hn
  case store x =>
    simp only [execute, Except.ok.injEq] at h
    rw [← h, passIndex_eq] at hn
    obtain ⟨k, hk, he⟩ := Memory.exists_of_read_writeBytes ha hn
    rw [Registers.length_upTo] at hk
    exact ⟨k, hk, he⟩
  all_goals exact absurd (congrArg (fun cells => cells.read a) hm) hn

theorem sets_of_setBitwise {x r : Register} {b : UInt8}
    (h : (m.setBitwise x b).v.get r ≠ m.v.get r) : r = x ∨ r = vF := by
  dsimp only [setBitwise] at h
  split at h
  · exact Registers.eq_or_eq_of_get_set_set h
  · exact Or.inl (Registers.eq_of_get_set h)

theorem registers_of_execute (h : m.execute i = .ok n) {r : Register}
    (hn : n.v.get r ≠ m.v.get r) : i.Sets r := by
  have hv := congrArg v (eq_overlaid_of_execute h)
  cases i
  case setByte x b | addByte x b | copy x y | random x b | getDelay x =>
    cases h
    exact Registers.eq_of_get_set hn
  case or x y | and x y | xor x y =>
    cases h
    exact sets_of_setBitwise (m := m.advance) hn
  case add x y | sub x y | shiftRight x y | subFrom x y | shiftLeft x y =>
    cases h
    exact Registers.eq_or_eq_of_get_set_set hn
  case draw x y k =>
    cases h
    exact Registers.eq_of_get_set hn
  case fetch x =>
    simp only [execute, Except.ok.injEq] at h
    rw [← h, passIndex_eq] at hn
    have hr := Registers.lt_of_get_load hn
    rw [Memory.length_readBytes] at hr
    exact Nat.le_of_lt_succ hr
  all_goals exact absurd (congrArg (fun file => file.get r) hv) hn

/-- Everything in which `n` differs from `m`, but for `pc` and what no instruction touches, is
the work of the instruction `i`. -/
structure Confined (m : Machine) (i : Instruction) (n : Machine) : Prop where
  memory : ∀ a < 4096, n.memory.read a ≠ m.memory.read a →
    ∃ k < i.stored, a = (m.i.toNat + k) % 4096
  screen : n.screen ≠ m.screen → i = .clear ∨ ∃ x y k, i = .draw x y k
  delay : n.timers.delay ≠ m.timers.delay → ∃ x, i = .setDelay x
  sound : n.timers.sound ≠ m.timers.sound → ∃ x, i = .setSound x
  pushed : ∀ a, i = .call a → n.stack = (m.pc + 2) :: m.stack
  popped : i = .ret → m.stack = n.pc :: n.stack
  stack : n.stack ≠ m.stack → (∃ a, i = .call a) ∨ i = .ret
  index : n.i ≠ m.i →
    (∃ a, i = .setIndex a) ∨ (∃ x, i = .addIndex x ∨ i = .pointAtGlyph x) ∨
      m.flags.dialect.dmaInc = true ∧ ∃ x, i = .store x ∨ i = .fetch x
  held : n.keypad.held = m.keypad.held
  latch : n.keypad.latch ≠ m.keypad.latch → ∃ x, i = .awaitKey x
  activity : n.activity ≠ m.activity → ∃ x, i = .awaitKey x
  drawn : ∀ x b, i = .random x b → n.random = m.random.advance
  random : n.random ≠ m.random → ∃ x b, i = .random x b
  registers : ∀ r, n.v.get r ≠ m.v.get r → i.Sets r

theorem confined_of_execute (h : m.execute i = .ok n) : Confined m i n where
  memory _ ha := memory_of_execute h ha
  screen := screen_of_execute h
  delay := delay_of_execute h
  sound := sound_of_execute h
  pushed := by
    rintro a rfl
    exact (executed_of_ok h).stack
  popped := by
    rintro rfl
    exact stack_eq_of_ret h
  stack := stack_of_execute h
  index := index_of_execute h
  held := (congrArg Keypad.held (executed_of_ok h).keypad).trans (held_keypadAfter m i)
  latch := latch_of_execute h
  activity := activity_of_execute h
  drawn := by
    rintro x b rfl
    exact random_of_execute h
  random := by
    have hr := random_of_execute h
    cases i
    case random x b => exact fun _ => ⟨x, b, rfl⟩
    all_goals exact absurd hr
  registers _ := registers_of_execute h

/-- Counting an instruction is no change of a part. -/
theorem Confined.complete (h : Confined m i n) (notices : Array Notice) :
    Confined m i (n.complete notices).machine := by
  rw [machine_complete]
  exact { h with }

/-- A tick that is counted made something of the word at `pc`. -/
theorem exists_attempt_of_tick (hf : m.Fetches)
    (hr : ∀ f, m.tick.result = .error f → f.isBreakpoint = true) :
    ∃ n, m.attempt = .ok n ∧ m.tick.machine = (n.complete #[]).machine ∧
      m.tick.result = (n.complete #[]).result := by
  obtain ⟨notices, ht⟩ := tick_eq_of_running hf.1 hf.2
  cases hm : m.attempt with
  | ok n =>
    simp only [hm] at ht
    refine ⟨n, rfl, ?_, ?_⟩
    · rw [ht, machine_complete, machine_complete]
    · rw [ht, result_complete, result_complete]
  | error f =>
    have hb := hr f (result_tick_of_attempt hf.1 hf.2 hm)
    rw [isBreakpoint_of_attempt hm] at hb
    cases hb

/-- A tick that executes an instruction changes nothing but the parts of that instruction, and one
that passes over a word changes none of them. -/
theorem parts_change_by_own_instructions {m : Machine} (hf : m.Fetches)
    (hr : ∀ f, m.tick.result = .error f → f.isBreakpoint = true) :
    (∀ i, Instruction.decode m.nextWord = some i → Confined m i m.tick.machine) ∧
      (Instruction.decode m.nextWord = none →
        m.tick.machine =
          { m with
            pc := m.pc + 2
            cycle := m.cycle + 1
            flags.pause := m.tick.machine.flags.pause }) ∧
      m.tick.machine.flags = { m.flags with pause := m.tick.machine.flags.pause } ∧
      (m.tick.machine.flags.pause = true ↔
        ∃ address next, m.tick.result = .error (.breakpoint address next)) ∧
      m.tick.machine.breakpoints = m.breakpoints ∧ m.tick.machine.program = m.program ∧
      m.tick.machine.cycle = m.cycle + 1 := by
  obtain ⟨n, hm, hmachine, hresult⟩ := exists_attempt_of_tick hf hr
  have hsetup := sameSetup_of_attempt hm
  have hticks := ticksTo_tick m
  refine ⟨?_, ?_, hticks.flags, ?_, hticks.breakpoints, hticks.program, ?_⟩
  · intro i hi
    rw [hmachine]
    have he : m.execute i = .ok n := by
      rw [← hm, attempt, hi]
    exact (confined_of_execute he).complete #[]
  · intro hi
    have ha : m.advance = n := by
      unfold attempt at hm
      simp only [hi] at hm
      split at hm <;> cases hm
      rfl
    rw [hmachine, machine_complete, ← ha]
    rfl
  · have hp := hf.1
    rw [hmachine, hresult, machine_complete, result_complete, hsetup.flags, hp]
    by_cases hb : addressWord n.pc ∈ n.breakpoints
    · simp [hb]
    · simp [hb]
  · rw [hmachine, machine_complete, hsetup.cycle]

/-- The three bytes that are stored from `0xfff` on go over the end of memory, the index moves on
with them, and the tick stops at a breakpoint. -/
theorem parts_change_at_end_of_memory :
    let m := Operation.run (boot {} (.ofSeed 0))
      [.load [0x61, 0x22, 0x62, 0x33, 0xaf, 0xff, 0xf2, 0x55], .reset, .multistep 3,
        .setFlags { dialect.dmaInc := true }, .setBreak 0x208]
    m.tick.result = .error (.breakpoint 0x208 0) ∧
      m.tick.machine.memory.read 0 = 0x22 ∧ m.tick.machine.memory.read 1 = 0x33 ∧
      m.tick.machine.i = 2 ∧ Confined m (.store ⟨2, by decide⟩) m.tick.machine ∧
      m.tick.machine.flags.pause = true ∧ m.tick.machine.cycle = m.cycle + 1 := by
  intro m
  have hrun : m.Fetches ∧ Instruction.decode m.nextWord = some (.store ⟨2, by decide⟩) ∧
      m.tick.result = .error (.breakpoint 0x208 0) ∧ m.tick.machine.memory.read 0 = 0x22 ∧
      m.tick.machine.memory.read 1 = 0x33 ∧ m.tick.machine.i = 2 := by decide +kernel
  obtain ⟨hf, hi, hr, hfirst, hsecond, hindex⟩ := hrun
  have hb : ∀ f, m.tick.result = .error f → f.isBreakpoint = true := by
    intro f h
    cases hr.symm.trans h
    rfl
  obtain ⟨hconfined, -, -, hpause, -, -, hcycle⟩ := parts_change_by_own_instructions hf hb
  exact ⟨hr, hfirst, hsecond, hindex, hconfined _ hi, hpause.mpr ⟨_, _, hr⟩, hcycle⟩

end Machine

end Chip8
