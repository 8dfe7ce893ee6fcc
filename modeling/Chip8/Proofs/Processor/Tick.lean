import Chip8.Proofs.Processor.Execution

/-! Everything that a tick of a processor can come to. -/
namespace Chip8.Processor

variable {p : Processor}

def nextWord (p : Processor) : UInt16 := p.memory.word p.pc.toNat

/-- What is shown of that word before it is decoded. -/
def shown (p : Processor) : Array Notice :=
  if p.flags.debug then #[.traced p.cycle p.pc p.nextWord] else #[]

theorem count_of_mem (h : p.pc ∈ p.breakpoints) (notices : Array Notice) :
    p.count notices =
      ⟨{ p with cycle := p.cycle + 1, flags.pause := true },
        .error (.breakpoint p.pc p.nextWord), notices⟩ := by
  have hne : p.breakpoints ≠ [] := List.ne_nil_of_mem h
  simp [count, checkBreakpoints, nextWord, h, hne]

theorem count_of_notMem (h : p.pc ∉ p.breakpoints) (notices : Array Notice) :
    p.count notices = ⟨{ p with cycle := p.cycle + 1 }, .ok (), notices⟩ := by
  simp [count, checkBreakpoints, h]

/-- Counting fails at breakpoints only. -/
theorem isBreakpoint_of_count {notices : Array Notice} {f : Fault}
    (h : (p.count notices).result = .error f) : f.isBreakpoint = true := by
  by_cases hb : p.pc ∈ p.breakpoints
  · rw [count_of_mem hb] at h
    cases h
    rfl
  · rw [count_of_notMem hb] at h
    cases h

/-- What the word at `pc` can come to. If it fails, the processor is as it was, with `pc` back on
the word. -/
inductive RunsTo (p : Processor) : Effect Unit → Prop where
  | skipped (hw : Instruction.decode p.nextWord = none) (hl : p.flags.lenient = true) :
      RunsTo p (p.skip.count (p.shown.push (.skipped p.nextWord p.pc)))
  | unrecognized (hw : Instruction.decode p.nextWord = none) (hl : p.flags.lenient = false) :
      RunsTo p ⟨p, .error (.unrecognized p.nextWord p.pc), p.shown⟩
  | failed {i : Instruction} {f : Fault} (hw : Instruction.decode p.nextWord = some i)
      (hf : (p.skip.execute i).1 = .error f) :
      RunsTo p ⟨p, .error f, p.shown.push (.executing p.pc i)⟩
  | executed {i : Instruction} (hw : Instruction.decode p.nextWord = some i)
      (hf : (p.skip.execute i).1 = .ok ()) :
      RunsTo p ((p.skip.execute i).2.count (p.shown.push (.executing p.pc i)))

theorem tickRunning_eq (p : Processor) :
    p.tickRunning =
      match Instruction.decode p.nextWord with
      | none =>
        if p.flags.lenient then p.skip.count (p.shown.push (.skipped p.nextWord p.pc))
        else ⟨p, .error (.unrecognized p.nextWord p.pc), p.shown⟩
      | some i =>
        match (p.skip.execute i).1 with
        | .error f =>
          ⟨{ (p.skip.execute i).2 with pc := p.pc }, .error f, p.shown.push (.executing p.pc i)⟩
        | .ok _ => (p.skip.execute i).2.count (p.shown.push (.executing p.pc i)) := by
  unfold tickRunning nextWord
  dsimp only
  cases Instruction.decode (p.memory.word p.pc.toNat) with
  | none => rfl
  | some i =>
    unfold skip
    generalize execute { p with pc := wrapWord (p.pc + 2) } i = executed
    cases executed.1 <;> rfl

theorem runsTo_tickRunning (p : Processor) : p.RunsTo p.tickRunning := by
  rw [tickRunning_eq]
  cases hw : Instruction.decode p.nextWord with
  | none =>
    cases hl : p.flags.lenient with
    | true => exact .skipped hw hl
    | false => exact .unrecognized hw hl
  | some i =>
    dsimp only
    cases hf : (p.skip.execute i).1 with
    | ok u => exact .executed hw hf
    | error f =>
      have hback : { (p.skip.execute i).2 with pc := p.pc } = p := by
        rw [processor_of_execute_error hf]
        rfl
      dsimp only
      rw [hback]
      exact .failed hw hf

inductive TicksTo (p : Processor) : Effect Unit → Prop where
  | paused (hp : p.flags.pause = true) : TicksTo p ⟨p, .ok (), #[]⟩
  | idle {x : Nat} (hp : p.flags.pause = false) (hs : p.state = .blockedOnKey x)
      (hl : p.keys.latch = none) : TicksTo p ⟨p, .ok (), #[]⟩
  | received {x key : Nat} (hp : p.flags.pause = false) (hs : p.state = .blockedOnKey x)
      (hl : p.keys.latch = some key) :
      TicksTo p (({ p with keys := p.keys.arm }.finishWait x key).count #[])
  | ran {e : Effect Unit} (hp : p.flags.pause = false) (hs : p.state = .running)
      (h : p.RunsTo e) : TicksTo p e

theorem ticksTo_tick (p : Processor) : p.TicksTo p.tick := by
  unfold tick
  cases hp : p.flags.pause with
  | true => exact .paused hp
  | false =>
    cases hs : p.state with
    | running => exact .ran hp hs (runsTo_tickRunning p)
    | blockedOnKey x =>
      cases hl : p.keys.latch with
      | none =>
        have hkeys : p.keys.arm = p.keys := by
          rw [KeyRow.arm, ← hl]
        have ht : p.tickBlocked x = ⟨{ p with keys := p.keys.arm }, .ok (), #[]⟩ := by
          simp [tickBlocked, KeyRow.takePress, KeyRow.arm, hl]
        rw [hkeys] at ht
        change p.TicksTo (p.tickBlocked x)
        rw [ht]
        exact .idle hp hs hl
      | some key =>
        have ht : p.tickBlocked x = ({ p with keys := p.keys.arm }.finishWait x key).count #[] := by
          simp [tickBlocked, KeyRow.takePress, KeyRow.arm, hl]
        change p.TicksTo (p.tickBlocked x)
        rw [ht]
        exact .received hp hs hl

end Chip8.Processor
