import Chip8.Proofs.Machine.Operation
import Chip8.Proofs.Processor.Failure

/-! A processor does what the machine does that it is seen as, operation by operation, as long as
everything in it is in its range. -/
namespace Chip8.Processor

variable {p : Processor}

/-! Ticks -/

theorem addressWord_pc (h : p.InRange) : addressWord p.toMachine.pc = p.pc :=
  (addressWord_addressOf p.pc).trans (wrapWord_of_lt h.pc)

theorem nextWord_toMachine (h : p.InRange) : p.toMachine.nextWord = p.nextWord :=
  congrArg p.memory.word (toNat_addressOf_of_lt h.pc)

theorem toStep_count (h : p.InRange) (notices : Array Notice) :
    (p.count notices).toStep = p.toMachine.complete notices := by
  have hpc := addressWord_pc h
  by_cases hb : p.pc ∈ p.breakpoints
  · have hm : addressWord p.toMachine.pc ∈ p.toMachine.breakpoints := by
      rw [hpc]
      exact hb
    have hc : p.toMachine.complete notices =
        ⟨{ p.toMachine with cycle := p.cycle + 1, flags.pause := true },
          .error (.breakpoint (addressWord p.toMachine.pc) p.toMachine.nextWord), notices⟩ :=
      if_pos hm
    rw [count_of_mem hb, hc, hpc, nextWord_toMachine h]
    rfl
  · have hm : addressWord p.toMachine.pc ∉ p.toMachine.breakpoints := by
      rw [hpc]
      exact hb
    have hc : p.toMachine.complete notices =
        ⟨{ p.toMachine with cycle := p.cycle + 1 }, .ok (), notices⟩ := if_neg hm
    rw [count_of_notMem hb, hc]
    rfl

theorem setAt_val (v : Registers) (x : Register) (b : UInt8) : v.setAt x.val b = v.set x b := by
  unfold Registers.setAt Registers.set
  congr 1
  ext j hj
  rw [Vector.getElem_setIfInBounds, Vector.getElem_set]

theorem toMachine_finishWait (p : Processor) (x key : Fin 16) :
    ({ p with keys := p.keys.arm }.finishWait x.val key.val).toMachine =
      p.toMachine.receiveKey x key := by
  have hpc : addressOf (wrapWord (p.pc + 2)) = p.toMachine.pc + 2 := by
    rw [addressOf_wrapWord, addressOf_add]
    rfl
  unfold finishWait skip Machine.receiveKey Machine.advance Machine.setRegister
  rw [setAt_val, ← hpc]
  rfl

theorem tickWaiting_of_none (x : Register) (hl : p.keys.latch = none) :
    p.toMachine.tickWaiting x = .ok p.toMachine () := by
  have hlatch : p.toMachine.keypad.latch = none := congrArg (Option.map lastDigit) hl
  rw [Machine.tickWaiting, Keypad.takePress, hlatch]

/-- What waits for a key is one of the registers, and what is in the latch is one of the keys. -/
theorem tickWaiting_of_some (h : p.InRange) {x key : Nat} (hs : p.state = .blockedOnKey x)
    (hl : p.keys.latch = some key) :
    p.toMachine.tickWaiting (lastDigit x) =
      (({ p with keys := p.keys.arm }.finishWait x key).count #[]).toStep := by
  have htaken : InRange { p with keys := p.keys.arm } := { h with latched := nofun }
  have hlatch : p.toMachine.keypad.latch = some (lastDigit key) :=
    congrArg (Option.map lastDigit) hl
  have hx : (lastDigit x).val = x := Nat.mod_eq_of_lt (h.awaited x hs)
  have hkey : (lastDigit key).val = key := Nat.mod_eq_of_lt (h.latched key hl)
  have hfinished := toMachine_finishWait p (lastDigit x) (lastDigit key)
  rw [hx, hkey] at hfinished
  rw [Machine.tickWaiting, Keypad.takePress, hlatch, toStep_count (htaken.finishWait _ _),
    hfinished]

theorem tickRunning_toMachine (h : p.InRange) {e : Effect Unit} (hr : p.RunsTo e) :
    p.toMachine.tickRunning = e.toStep := by
  unfold Machine.tickRunning
  rw [nextWord_toMachine h, addressWord_pc h]
  cases hr with
  | skipped hw hl =>
    have hm : p.toMachine.flags.lenient = true := hl
    rw [toStep_count h.skip, toMachine_skip]
    dsimp only
    rw [hw, hm, if_pos rfl]
    rfl
  | unrecognized hw hl =>
    have hm : p.toMachine.flags.lenient = false := hl
    dsimp only
    rw [hw, hm, if_neg Bool.false_ne_true]
    rfl
  | @failed i f hw hf =>
    have hm : p.toMachine.execute i = .error f := by
      rw [← seen_execute h, seen, hf]
      rfl
    dsimp only
    rw [hw]
    dsimp only
    rw [hm]
    rfl
  | @executed i hw hf =>
    have hm : p.toMachine.execute i = .ok (p.skip.execute i).2.toMachine := by
      rw [← seen_execute h, seen, hf]
      rfl
    rw [toStep_count (h.skip.execute i)]
    dsimp only
    rw [hw]
    dsimp only
    rw [hm]
    rfl

theorem tick_of_blockedOnKey {x : Nat} (hp : p.flags.pause = false)
    (hs : p.state = .blockedOnKey x) :
    p.toMachine.tick = p.toMachine.tickWaiting (lastDigit x) := by
  have hm : p.toMachine.flags.pause = false := hp
  have ha : p.toMachine.activity = .awaitingKey (lastDigit x) := congrArg State.toActivity hs
  rw [Machine.tick, hm, ha, if_neg Bool.false_ne_true]

theorem tick_of_running (hp : p.flags.pause = false) (hs : p.state = .running) :
    p.toMachine.tick = p.toMachine.tickRunning := by
  have hm : p.toMachine.flags.pause = false := hp
  have ha : p.toMachine.activity = .running := congrArg State.toActivity hs
  rw [Machine.tick, hm, ha, if_neg Bool.false_ne_true]

theorem toStep_tick (h : p.InRange) : p.tick.toStep = p.toMachine.tick := by
  have ht := ticksTo_tick p
  generalize p.tick = e at ht
  cases ht with
  | paused hp => exact (Machine.tick_of_pause hp).symm
  | idle hp hs hl =>
    rw [tick_of_blockedOnKey hp hs, tickWaiting_of_none _ hl]
    rfl
  | received hp hs hl => rw [tick_of_blockedOnKey hp hs, tickWaiting_of_some h hs hl]
  | ran hp hs hr => rw [tick_of_running hp hs, tickRunning_toMachine h hr]

theorem toStep_singlestep (h : p.InRange) : p.singlestep.toStep = p.toMachine.singlestep := by
  have hawake : InRange { p with flags.pause := false } := { h with }
  have ht := toStep_tick hawake
  have hm : p.toMachine.singlestep =
      { { p with flags.pause := false }.tick.toStep with
        machine.flags.pause := true } := by
    rw [ht]
    rfl
  rw [hm]
  rfl

theorem continueFor_toMachine (h : p.InRange) (notices : Array Notice) (n : Nat) :
    Machine.continueFor n ⟨p.toMachine, .ok (), notices⟩ = (p.continueFor notices n).toStep := by
  induction n generalizing p notices with
  | zero => rfl
  | succ n ih =>
    have htold : p.tick.toStep.after notices =
        ⟨p.tick.processor.toMachine, p.tick.result, notices ++ p.tick.notices⟩ := rfl
    rw [Machine.continueFor_of_ok n rfl, ← toStep_tick h]
    unfold continueFor
    dsimp only [Effect.after]
    rw [htold]
    cases p.tick.result with
    | error f => exact Machine.continueFor_of_error n rfl
    | ok u => exact ih h.tick _

theorem toStep_multistep (h : p.InRange) (n : Nat) :
    (p.multistep n).toStep = p.toMachine.multistep n :=
  (continueFor_toMachine h #[] n).symm

/-! Other operations -/

theorem getElem?_held {key : Nat} (hkey : key < 16) (k : KeyRow) :
    k.held[key]? = some (k.toKeypad.isHeld ⟨key, hkey⟩) := by
  rw [Vector.getElem?_eq_getElem hkey]
  rfl

/-- The latch takes the number of the key, which stands for the key itself. -/
theorem toKeypad_setKey {key : Nat} (hkey : key < 16) (k : KeyRow) (down : Bool) :
    (k.setKey key down).1 = .ok (k.toKeypad.set ⟨key, hkey⟩ down).1 ∧
      (k.setKey key down).2.toKeypad = (k.toKeypad.set ⟨key, hkey⟩ down).2 := by
  have hheld : k.held.setIfInBounds key down = k.toKeypad.held.set key down hkey := by
    ext j hj
    rw [Vector.getElem_setIfInBounds, Vector.getElem_set]
    rfl
  have hdigit : lastDigit key = ⟨key, hkey⟩ := lastDigit_val ⟨key, hkey⟩
  unfold KeyRow.setKey Keypad.set
  rw [getElem?_held hkey]
  dsimp only
  split
  · exact ⟨rfl, rfl⟩
  · rw [hheld]
    cases hl : k.latch with
    | none =>
      have hlatch : k.toKeypad.latch = none := congrArg (Option.map lastDigit) hl
      rw [hlatch]
      cases down with
      | true => simp [KeyRow.toKeypad, hdigit]
      | false => simp [KeyRow.toKeypad, hl]
    | some first =>
      have hlatch : k.toKeypad.latch = some (lastDigit first) := congrArg (Option.map lastDigit) hl
      rw [hlatch]
      cases down with
      | true => simp [KeyRow.toKeypad, hl]
      | false => simp [KeyRow.toKeypad, hl]

theorem toStep_setKey (p : Processor) (key : Nat) (down : Bool) :
    (p.setKey key down).toStep = p.toMachine.setKey key down := by
  rcases Nat.lt_or_ge key 16 with hkey | hkey
  · obtain ⟨hchanged, hkeys⟩ := toKeypad_setKey hkey p.keys down
    have hm : (p.setKey key down).processor.toMachine =
        { p.toMachine with keypad := (p.keys.setKey key down).2.toKeypad } := rfl
    rw [Machine.setKey_of_lt hkey, Effect.toStep, hm, hkeys, setKey, hchanged]
    rfl
  · rw [Machine.setKey_of_le hkey, setKey_of_le hkey]
    rfl

theorem toStep_setV (p : Processor) (register : Nat) (b : UInt8) :
    (p.setV register b).toStep = p.toMachine.setV register b := by
  rcases Nat.lt_or_ge register 16 with hr | hr
  · rw [Machine.setV_of_lt hr, setV, if_pos hr]
    change Step.mk { p.toMachine with v := p.v.setAt register b } _ _ = _
    rw [setAt_val p.v ⟨register, hr⟩]
    rfl
  · rw [Machine.setV_of_le hr, setV, if_neg (Nat.not_lt.mpr hr)]
    rfl

theorem toStep_load (p : Processor) (program : List UInt8) :
    (p.load program).toStep = p.toMachine.load program := by
  rcases Nat.lt_or_ge Region.program.size program.length with hl | hl
  · rw [load_of_lt hl, Machine.load_of_lt hl]
    rfl
  · rw [load_of_le hl, Machine.load_of_le hl]
    rfl

theorem toStep_reset (p : Processor) : p.reset.toStep = p.toMachine.reset := rfl

theorem toMachine_setBreak (p : Processor) (a : UInt16) :
    (p.setBreak a).toMachine = p.toMachine.setBreak a := by
  by_cases ha : a ∈ p.breakpoints
  · have hm : a ∈ p.toMachine.breakpoints := ha
    rw [setBreak, if_pos (List.contains_iff_mem.mpr ha), Machine.setBreak, if_pos hm]
  · have hm : a ∉ p.toMachine.breakpoints := ha
    rw [setBreak, if_neg (mt List.contains_iff_mem.mp ha), Machine.setBreak, if_neg hm]
    rfl

theorem toStep_apply (h : p.InRange) (op : Operation) :
    (p.apply op).toStep = op.apply p.toMachine := by
  cases op with
  | tick => exact congrArg (Operation.answer fun _ => .done) (toStep_tick h)
  | singlestep => exact congrArg (Operation.answer fun _ => .done) (toStep_singlestep h)
  | multistep n => exact congrArg (Operation.answer fun _ => .done) (toStep_multistep h n)
  | setKey key down => exact congrArg (Operation.answer .changed) (toStep_setKey p key down)
  | setV register b => exact congrArg (Operation.answer fun _ => .done) (toStep_setV p register b)
  | load program => exact congrArg (Operation.answer fun _ => .done) (toStep_load p program)
  | reset => exact congrArg (Operation.answer fun _ => .done) (toStep_reset p)
  | setBreak a => exact congrArg (fun m => Step.ok m Operation.Answer.done) (toMachine_setBreak p a)
  | tickTimers | unsetBreak | reseed | setFlags => rfl

theorem toMachine_run (h : p.InRange) (ops : List Operation) :
    (p.run ops).toMachine = Operation.run p.toMachine ops := by
  induction ops generalizing p with
  | nil => rfl
  | cons op ops ih =>
    have hop : (p.apply op).processor.toMachine = (op.apply p.toMachine).machine :=
      congrArg Step.machine (toStep_apply h op)
    change ((p.apply op).processor.run ops).toMachine = _
    rw [ih (h.apply op), hop]
    rfl

/-- What can be reached as a machine is what can be reached as a processor, seen as a machine. What
holds of all reachable machines is thus known of all reachable processors. -/
theorem reachable_iff_exists_toMachine {m : Machine} :
    m.Reachable ↔ ∃ p : Processor, p.Reachable ∧ p.toMachine = m := by
  have hrun : ∀ random ops, ((boot {} random).run ops).toMachine =
      Operation.run (.boot {} random) ops := fun random ops => toMachine_run (.boot {} random) ops
  constructor
  · rintro ⟨random, ops, rfl⟩
    exact ⟨(boot {} random).run ops, ⟨random, ops, rfl⟩, hrun random ops⟩
  · rintro ⟨p, ⟨random, ops, rfl⟩, rfl⟩
    exact ⟨random, ops, (hrun random ops).symm⟩

end Chip8.Processor
