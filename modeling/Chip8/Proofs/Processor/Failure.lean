import Chip8.Proofs.Codec
import Chip8.Proofs.Processor.Tick

/-! When the operations of a processor fail, and that a failure leaves nothing changed. -/
namespace Chip8.Processor

variable {p : Processor} {f : Fault}

/-- What can be wrong with the word at `pc`, and how that is told. -/
inductive Defect (p : Processor) : Fault → Prop where
  | unrecognized (hw : ∀ i : Instruction, i.encode ≠ p.nextWord) (hl : p.flags.lenient = false) :
      Defect p (.unrecognized p.nextWord p.pc)
  | stackOverflow (hw : p.nextWord.toNat / 4096 = 2) (hs : p.stack.size = 16) :
      Defect p (.stackOverflow p.pc 16)
  | stackUnderflow (hw : p.nextWord = 0x00ee) (hs : p.stack = #[]) :
      Defect p (.stackUnderflow p.pc)

/-- A fault tells the address of the instruction, found again from behind it. -/
theorem wrapWord_skip_pc (h : p.InRange) : wrapWord (p.skip.pc - 2) = p.pc :=
  (wrapWord_add_sub p.pc).trans (wrapWord_of_lt h.pc)

theorem execute_skip_eq_error_iff (h : p.InRange) {i : Instruction} :
    (p.skip.execute i).1 = .error f ↔
      (∃ a, i = .call a ∧ p.stack.size = 16 ∧ f = .stackOverflow p.pc 16) ∨
        (i = .ret ∧ p.stack = #[] ∧ f = .stackUnderflow p.pc) := by
  have hfull : Machine.stackDepth ≤ p.skip.stack.size ↔ p.stack.size = 16 :=
    ⟨Nat.le_antisymm h.depth, fun hs => Nat.le_of_eq hs.symm⟩
  rw [execute_eq_error_iff, wrapWord_skip_pc h, hfull]
  rfl

theorem defect_of_runsTo (h : p.InRange) (hf : f.isBreakpoint = false) {e : Effect Unit}
    (hr : p.RunsTo e) (he : e.result = .error f) : p.Defect f := by
  cases hr with
  | skipped hw hl =>
    rw [isBreakpoint_of_count he] at hf
    cases hf
  | unrecognized hw hl =>
    cases he
    exact .unrecognized (Instruction.decode_eq_none_iff.mp hw) hl
  | @failed i g hw hg =>
    cases he
    rcases (execute_skip_eq_error_iff h).mp hg with ⟨a, rfl, hs, rfl⟩ | ⟨rfl, hs, rfl⟩
    · exact .stackOverflow (Instruction.decode_eq_call_iff.mp ⟨a, hw⟩) hs
    · exact .stackUnderflow (Instruction.decode_eq_ret_iff.mp hw) hs
  | executed hw hok =>
    rw [isBreakpoint_of_count he] at hf
    cases hf

theorem result_tickRunning_of_defect (h : p.InRange) (hd : p.Defect f) :
    p.tickRunning.result = .error f := by
  have hfailed : ∀ {i : Instruction}, Instruction.decode p.nextWord = some i →
      (p.skip.execute i).1 = .error f → p.tickRunning.result = .error f := by
    intro i hw hi
    rw [tickRunning_eq, hw]
    dsimp only
    rw [hi]
  cases hd with
  | unrecognized hw hl =>
    rw [tickRunning_eq, Instruction.decode_eq_none_iff.mpr hw]
    dsimp only
    rw [hl, if_neg Bool.false_ne_true]
  | stackOverflow hw hs =>
    obtain ⟨a, hi⟩ := Instruction.decode_eq_call_iff.mpr hw
    exact hfailed hi ((execute_skip_eq_error_iff h).mpr (Or.inl ⟨a, rfl, hs, rfl⟩))
  | stackUnderflow hw hs =>
    have hi := Instruction.decode_eq_ret_iff.mpr hw
    exact hfailed hi ((execute_skip_eq_error_iff h).mpr (Or.inr ⟨rfl, hs, rfl⟩))

theorem tick_eq_error_iff (h : p.InRange) (hf : f.isBreakpoint = false) :
    p.tick.result = .error f ↔ p.flags.pause = false ∧ p.state = .running ∧ p.Defect f := by
  constructor
  · intro he
    have ht := ticksTo_tick p
    generalize p.tick = e at ht he
    cases ht with
    | paused | idle => cases he
    | received =>
      rw [isBreakpoint_of_count he] at hf
      cases hf
    | ran hp hs hr => exact ⟨hp, hs, defect_of_runsTo h hf hr he⟩
  · rintro ⟨hp, hs, hd⟩
    have ht : p.tick = p.tickRunning := by
      rw [tick, hp, hs, if_neg Bool.false_ne_true]
    rw [ht]
    exact result_tickRunning_of_defect h hd

/-- Whatever was done before an instruction failed was undone. -/
theorem processor_tick_of_error (hf : f.isBreakpoint = false) (h : p.tick.result = .error f) :
    p.tick.processor = p := by
  have ht := ticksTo_tick p
  generalize p.tick = e at ht h
  cases ht with
  | paused | idle => rfl
  | received =>
    rw [isBreakpoint_of_count h] at hf
    cases hf
  | ran hp hs hr =>
    cases hr with
    | unrecognized | failed => rfl
    | skipped | executed =>
      rw [isBreakpoint_of_count h] at hf
      cases hf

/-- The processor after `k` ticks, whatever they came to. -/
def afterTicks (p : Processor) : Nat → Processor
  | 0 => p
  | k + 1 => p.tick.processor.afterTicks k

def Runs (p : Processor) (k : Nat) : Prop := ∀ j < k, (p.afterTicks j).tick.result = .ok ()

/-- A processor that failed once stays where it is for ever. -/
theorem afterTicks_of_error (hf : f.isBreakpoint = false) (h : p.tick.result = .error f) (k : Nat) :
    p.afterTicks k = p := by
  induction k with
  | zero => rfl
  | succ k ih => rw [afterTicks, processor_tick_of_error hf h, ih]

theorem runs_succ {k : Nat} (ht : p.tick.result = .ok ()) (h : p.tick.processor.Runs k) :
    p.Runs (k + 1) := by
  intro j hj
  cases j with
  | zero => exact ht
  | succ j => exact h j (Nat.lt_of_succ_lt_succ hj)

theorem continueFor_of_error {notices : Array Notice} {n : Nat}
    (h : (p.continueFor notices n).result = .error f) :
    ∃ k < n, p.Runs k ∧ (p.afterTicks k).tick.result = .error f ∧
      (p.continueFor notices n).processor = p.afterTicks (if f.isBreakpoint then k + 1 else k) := by
  induction n generalizing p notices with
  | zero => cases h
  | succ n ih =>
    unfold continueFor at h ⊢
    dsimp only [Effect.after] at h ⊢
    cases ht : p.tick.result with
    | error g =>
      rw [ht] at h
      cases h
      refine ⟨0, Nat.succ_pos n, fun j hj => absurd hj (Nat.not_lt_zero j), ht, ?_⟩
      cases hf : f.isBreakpoint with
      | true => rfl
      | false => exact processor_tick_of_error hf ht
    | ok u =>
      rw [ht] at h
      obtain ⟨k, hk, hruns, hg, hp⟩ := ih h
      refine ⟨k + 1, Nat.succ_lt_succ hk, runs_succ ht hruns, hg, hp.trans ?_⟩
      cases f.isBreakpoint <;> rfl

/-- Several ticks that fail get as far as the first that does. -/
theorem multistep_of_error {n : Nat} (h : (p.multistep n).result = .error f) :
    ∃ k < n, p.Runs k ∧ (p.afterTicks k).tick.result = .error f ∧
      (p.multistep n).processor = p.afterTicks (if f.isBreakpoint then k + 1 else k) :=
  continueFor_of_error h

theorem setKey_of_le {key : Nat} (h : 16 ≤ key) (down : Bool) :
    p.setKey key down = ⟨p, .error (.noSuchKey key), #[]⟩ := by
  have hnone : p.keys.held[key]? = none := by
    rw [Vector.getElem?_eq_none_iff]
    exact h
  rw [setKey, KeyRow.setKey, hnone]

theorem result_setKey_of_lt {key : Nat} (h : key < 16) (down : Bool) :
    ∃ changed, (p.setKey key down).result = .ok changed := by
  have hsome : p.keys.held[key]? = some p.keys.held[key] := Vector.getElem?_eq_getElem h
  rw [setKey, KeyRow.setKey, hsome]
  dsimp only
  split
  · exact ⟨false, rfl⟩
  · split <;> exact ⟨true, rfl⟩

/-- The program is looked at before memory is cleared for it. -/
theorem load_of_lt {program : List UInt8} (h : Region.program.size < program.length) :
    p.load program = ⟨p, .error (.tooLarge program.length .program), #[]⟩ := if_pos h

/-- The second look at the program finds it as small as the first. -/
theorem load_of_le {program : List UInt8} (h : program.length ≤ Region.program.size) :
    p.load program =
      ⟨{ p with
          memory := (p.memory.clearRegion .program).writeBytes Region.program.start program
          program := program },
        .ok (), #[.loaded program.length]⟩ := by
  have hfits := Nat.not_lt.mpr h
  rw [load, if_neg hfits, Memory.loadRegion, if_neg hfits]

/-- A tick fails, but for breakpoints, by the word at `pc` and nothing else. Failures leave the
processor as it was, and several ticks leave it as those before the failure did. -/
theorem failures_exact_and_atomic {p : Processor} (h : p.Reachable) :
    (∀ f, f.isBreakpoint = false →
      (p.tick.result = .error f ↔
        p.flags.pause = false ∧ p.state = .running ∧ p.Defect f)) ∧
    (∀ f, f.isBreakpoint = false → p.tick.result = .error f →
      ∀ k, p.afterTicks k = p ∧ (p.afterTicks k).tick = p.tick) ∧
    (∀ n f, (p.multistep n).result = .error f →
      ∃ k < n, p.Runs k ∧ (p.afterTicks k).tick.result = .error f ∧
        (p.multistep n).processor = p.afterTicks (if f.isBreakpoint then k + 1 else k)) ∧
    (∀ key down, (16 ≤ key → p.setKey key down = ⟨p, .error (.noSuchKey key), #[]⟩) ∧
      (key < 16 → ∃ changed, (p.setKey key down).result = .ok changed)) ∧
    (∀ register b,
      (16 ≤ register → p.setV register b = ⟨p, .error (.noSuchRegister register), #[]⟩) ∧
      (register < 16 → (p.setV register b).result = .ok ())) ∧
    (∀ program : List UInt8,
      (3584 < program.length →
        p.load program = ⟨p, .error (.tooLarge program.length .program), #[]⟩) ∧
      (program.length ≤ 3584 → (p.load program).result = .ok ())) := by
  have hp : p.InRange := by
    obtain ⟨random, ops, rfl⟩ := h
    exact (InRange.boot {} random).run ops
  refine ⟨fun f hf => tick_eq_error_iff hp hf, ?_, fun n f => multistep_of_error, ?_, ?_, ?_⟩
  · intro f hf ht k
    have hk := afterTicks_of_error hf ht k
    exact ⟨hk, by rw [hk]⟩
  · intro key down
    exact ⟨fun hk => setKey_of_le hk down, fun hk => result_setKey_of_lt hk down⟩
  · intro register b
    constructor
    · intro hr
      rw [setV, if_neg (Nat.not_lt.mpr hr)]
    · intro hr
      rw [setV, if_pos hr]
  · intro program
    exact ⟨fun hl => load_of_lt hl, fun hl => by rw [load_of_le hl]⟩

/-- A return without a call at the last address of memory, half of which stands at the first. It
fails where it stands, however often it is tried. -/
theorem failures_of_return_at_end_of_memory :
    let p := (boot {} (.ofSeed 0)).run
      [.load [0x60, 0xee, 0xa0, 0x00, 0xf0, 0x55, 0x1f, 0xff], .reset, .multistep 4]
    p.tick.result = .error (.stackUnderflow 0xfff) ∧
      ∀ k, p.afterTicks k = p ∧ (p.afterTicks k).tick = p.tick := by
  intro p
  have ht : p.tick.result = .error (.stackUnderflow 0xfff) := by decide +kernel
  exact ⟨ht, (failures_exact_and_atomic ⟨.ofSeed 0, _, rfl⟩).2.1 _ rfl ht⟩

end Chip8.Processor
