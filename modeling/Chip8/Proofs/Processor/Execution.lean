import Chip8.Proofs.Processor.Invariant

/-! What instructions do to a processor, and to the machine that it is seen as. Calls and returns are
the only ones that fail, and they fail before they change anything. -/
namespace Chip8.Processor

variable {p : Processor} {i : Instruction} {f : Fault}

/-- Taking an address from an empty stack leaves it empty. -/
theorem ret_of_empty (h : p.stack = #[]) :
    p.ret = (.error (.stackUnderflow (wrapWord (p.pc - 2))), p) := by
  have hpop : { p with stack := p.stack.pop } = p := by
    rw [h, Array.pop_empty, ← h]
  unfold ret
  rw [hpop, h]
  rfl

theorem ret_of_push {a : UInt16} {rest : Array UInt16} (h : p.stack = rest.push a) :
    p.ret = (.ok (), { p with stack := rest, pc := a }) := by
  simp [ret, h]

theorem call_of_le (h : Machine.stackDepth ≤ p.stack.size) (a : UInt16) :
    p.call a = (.error (.stackOverflow (wrapWord (p.pc - 2)) Machine.stackDepth), p) := if_pos h

theorem call_of_lt (h : p.stack.size < Machine.stackDepth) (a : UInt16) :
    p.call a = (.ok (), { p with stack := p.stack.push p.pc, pc := wrapWord a }) :=
  if_neg (Nat.not_le.mpr h)

theorem eq_empty_or_push (s : Array UInt16) :
    s = #[] ∨ ∃ (rest : Array UInt16) (a : UInt16), s = rest.push a := by
  cases h : s.back? with
  | none => exact Or.inl (Array.back?_eq_none_iff.mp h)
  | some a =>
    obtain ⟨rest, hs⟩ := Array.back?_eq_some_iff.mp h
    exact Or.inr ⟨rest, a, hs⟩

theorem execute_eq_error_iff :
    (p.execute i).1 = .error f ↔
      (∃ a, i = .call a ∧ Machine.stackDepth ≤ p.stack.size ∧
          f = .stackOverflow (wrapWord (p.pc - 2)) Machine.stackDepth) ∨
        (i = .ret ∧ p.stack = #[] ∧ f = .stackUnderflow (wrapWord (p.pc - 2))) := by
  cases i
  case ret =>
    rcases eq_empty_or_push p.stack with h | ⟨rest, a, h⟩
    · simp [execute, ret_of_empty h, h, eq_comm]
    · simp [execute, ret_of_push h, h]
  case call a =>
    rcases Nat.lt_or_ge p.stack.size Machine.stackDepth with h | h
    · simp [execute, call_of_lt h, Nat.not_le.mpr h]
    · simp [execute, call_of_le h, h, eq_comm]
  all_goals simp [execute]

/-- An instruction that fails has not changed anything. -/
theorem processor_of_execute_error (h : (p.execute i).1 = .error f) : (p.execute i).2 = p := by
  obtain ⟨a, rfl, hfull, -⟩ | ⟨rfl, hempty, -⟩ := execute_eq_error_iff.mp h
  · exact congrArg Prod.snd (call_of_le hfull (addressWord a))
  · exact congrArg Prod.snd (ret_of_empty hempty)

/-! Instructions seen from a machine. That stands on the instruction that it executes, and the
processor behind it. -/

/-- What comes of an instruction, with the processor seen as a machine. -/
def seen (e : Except Fault Unit × Processor) : Except Fault Machine :=
  e.1.map fun _ => e.2.toMachine

theorem toMachine_withPc (p : Processor) (a : UInt16) :
    { p with pc := a }.toMachine = { p.toMachine with pc := addressOf a } := rfl

theorem toMachine_withI (p : Processor) (a : UInt16) :
    { p with i := a }.toMachine = { p.toMachine with i := addressOf a } := rfl

theorem toMachine_skip (p : Processor) : p.skip.toMachine = p.toMachine.advance := by
  rw [skip, toMachine_withPc, addressOf_wrapWord, addressOf_add]
  rfl

theorem toMachine_skipIf_skip (p : Processor) (condition : Bool) :
    (p.skip.skipIf condition).toMachine = p.toMachine.skipIf condition := by
  cases condition with
  | false => exact toMachine_skip p
  | true =>
    have hskip : (p.skip.skipIf true).toMachine = p.toMachine.advance.advance := by
      rw [← toMachine_skip, ← toMachine_skip]
      rfl
    have hfour : p.toMachine.pc + 2 + 2 = p.toMachine.pc + 4 := BitVec.add_assoc _ 2 2
    rw [hskip]
    simp only [Machine.advance, Machine.skipIf, if_true, hfour]

theorem toMachine_setRegister_skip (p : Processor) (x : Register) (b : UInt8) :
    (p.skip.setRegister x b).toMachine = p.toMachine.advance.setRegister x b :=
  congrArg (fun m => m.setRegister x b) (toMachine_skip p)

theorem toMachine_setFlagged_skip (p : Processor) (x : Register) (r : Flagged) :
    (p.skip.setFlagged x r).toMachine = p.toMachine.advance.setFlagged x r :=
  congrArg (fun m => m.setFlagged x r) (toMachine_skip p)

theorem toMachine_setBitwise (p : Processor) (x : Register) (b : UInt8) :
    (p.setBitwise x b).toMachine = p.toMachine.setBitwise x b := by
  have hflags : p.toMachine.flags = p.flags := rfl
  unfold setBitwise Machine.setBitwise
  rw [hflags]
  dsimp only [setRegister]
  split
  · rfl
  · rfl

theorem toMachine_setBitwise_skip (p : Processor) (x : Register) (b : UInt8) :
    (p.skip.setBitwise x b).toMachine = p.toMachine.advance.setBitwise x b := by
  rw [toMachine_setBitwise, toMachine_skip]

theorem toMachine_passIndex (p : Processor) (x : Register) :
    (p.passIndex x).toMachine = p.toMachine.passIndex x := by
  have hone : addressOf 1 = 1 := rfl
  have hx : addressOf (UInt16.ofNat x.val) = BitVec.ofNat 12 x.val := by
    have hlt : x.val < 2 ^ 16 := Nat.lt_trans x.isLt (by decide)
    rw [addressOf, UInt16.toNat_ofNat_of_lt' hlt]
  have hcount : addressOf (UInt16.ofNat x.val + 1) = BitVec.ofNat 12 (x.val + 1) := by
    rw [addressOf_add, BitVec.ofNat_add, hone, hx]
    rfl
  have hflags : p.toMachine.flags = p.flags := rfl
  unfold passIndex Machine.passIndex
  rw [hflags]
  split
  · rw [toMachine_withI, addressOf_wrapWord, addressOf_add, hcount]
    rfl
  · rfl

theorem toMachine_drawSprite (hi : p.i.toNat < 4096) (x y : Register) (n : Fin 16) :
    (p.drawSprite x y n).toMachine = p.toMachine.drawSprite x y n := by
  have hm : p.toMachine.i.toNat = p.i.toNat := toNat_addressOf_of_lt hi
  unfold drawSprite Machine.drawSprite
  rw [hm]
  rfl

theorem isPressed_eq_isHeld (k : KeyRow) (b : UInt8) :
    k.isPressed (b.toNat &&& 0xf) = k.toKeypad.isHeld (lastDigit b.toNat) := by
  have hdigit : b.toNat &&& 0xf = b.toNat % 16 := Nat.and_two_pow_sub_one_eq_mod b.toNat 4
  have hlt : b.toNat % 16 < 16 := Nat.mod_lt _ (by decide)
  rw [KeyRow.isPressed, hdigit, Vector.getElem?_eq_getElem hlt]
  rfl

/-- Where an instruction stands is told in the same words. -/
theorem wrapWord_skip (p : Processor) :
    wrapWord (p.skip.pc - 2) = addressWord p.toMachine.pc :=
  (wrapWord_add_sub p.pc).trans (addressWord_addressOf p.pc).symm

theorem seen_ret (p : Processor) : seen p.skip.ret = p.toMachine.execute .ret := by
  rcases eq_empty_or_push p.stack with hs | ⟨rest, a, hs⟩
  · have hm : p.toMachine.stack = [] := by simp [toMachine, hs]
    rw [ret_of_empty (p := p.skip) hs, wrapWord_skip, Machine.execute, hm]
    rfl
  · have hm : p.toMachine.stack = addressOf a :: rest.toList.reverse.map addressOf := by
      simp [toMachine, hs]
    rw [ret_of_push (p := p.skip) hs, Machine.execute, hm]
    rfl

theorem seen_call (p : Processor) (a : Address) :
    seen (p.skip.call (addressWord a)) = p.toMachine.execute (.call a) := by
  have hlength : p.toMachine.stack.length = p.stack.size := by simp [toMachine]
  rw [Machine.execute, hlength]
  rcases Nat.lt_or_ge p.stack.size Machine.stackDepth with h | h
  · have hpush : (p.stack.push p.skip.pc).toList.reverse.map addressOf =
        (p.toMachine.pc + 2) :: p.toMachine.stack := by
      rw [Array.toList_push, List.reverse_concat, List.map_cons, skip, addressOf_wrapWord,
        addressOf_add]
      rfl
    rw [call_of_lt (p := p.skip) h, if_pos h, ← hpush]
    simp only [seen, Except.map, toMachine, addressOf_wrapWord, addressOf_addressWord]
    rfl
  · rw [call_of_le (p := p.skip) h, wrapWord_skip, if_neg (Nat.not_lt.mpr h)]
    rfl

theorem lastDigit_val (x : Fin 16) : lastDigit x.val = x := Fin.ext (Nat.mod_eq_of_lt x.isLt)

theorem seen_execute (h : p.InRange) (i : Instruction) :
    seen (p.skip.execute i) = p.toMachine.execute i := by
  have hskip := toMachine_skip p
  have hi : p.toMachine.i.toNat = p.i.toNat := toNat_addressOf_of_lt h.i
  cases i with
  | ret => exact seen_ret p
  | call a => exact seen_call p a
  | jump a =>
    change Except.ok { p.toMachine with pc := addressOf (wrapWord (addressWord a)) } = _
    rw [addressOf_wrapWord, addressOf_addressWord]
    rfl
  | jumpFrom a =>
    change Except.ok { p.toMachine with
      pc := addressOf (wrapWord (addressWord a + (p.v.get v0).toUInt16)) } = _
    rw [addressOf_wrapWord, addressOf_add, addressOf_addressWord, addressOf_toUInt16]
    rfl
  | awaitKey x =>
    change Except.ok { p.toMachine with
      pc := addressOf (wrapWord (wrapWord (p.pc + 2) - 2)), keypad := p.toMachine.keypad.arm
      activity := .awaitingKey (lastDigit x.val) } = _
    rw [wrapWord_add_sub, addressOf_wrapWord, lastDigit_val]
    rfl
  | skipIfByte | skipUnlessByte | skipIfEqual | skipUnlessEqual =>
    exact congrArg Except.ok (toMachine_skipIf_skip p _)
  | skipIfKey x =>
    refine (congrArg Except.ok (toMachine_skipIf_skip p _)).trans ?_
    rw [isNamedKeyHeld, isPressed_eq_isHeld]
    rfl
  | skipUnlessKey x =>
    refine (congrArg Except.ok (toMachine_skipIf_skip p _)).trans ?_
    rw [isNamedKeyHeld, isPressed_eq_isHeld]
    rfl
  | setByte | addByte | copy | getDelay =>
    exact congrArg Except.ok (toMachine_setRegister_skip p _ _)
  | or | and | xor => exact congrArg Except.ok (toMachine_setBitwise_skip p _ _)
  | add | sub | subFrom | shiftRight | shiftLeft =>
    exact congrArg Except.ok (toMachine_setFlagged_skip p _ _)
  | clear => exact congrArg (fun m => Except.ok { m with screen := .blank }) hskip
  | random x b =>
    have hv := toMachine_setRegister_skip p x (p.random.peek &&& b)
    exact congrArg (fun m => Except.ok { m with random := p.random.advance }) hv
  | setDelay x =>
    exact congrArg (fun m => Except.ok { m with timers.delay := p.v.get x }) hskip
  | setSound x =>
    exact congrArg (fun m => Except.ok { m with timers.sound := p.v.get x }) hskip
  | setIndex a =>
    change Except.ok { p.skip.toMachine with i := addressOf (wrapWord (addressWord a)) } = _
    rw [hskip, addressOf_wrapWord, addressOf_addressWord]
    rfl
  | addIndex x =>
    change Except.ok { p.skip.toMachine with
      i := addressOf (wrapWord (p.i + (p.v.get x).toUInt16)) } = _
    rw [hskip, addressOf_wrapWord, addressOf_add, addressOf_toUInt16]
    rfl
  | pointAtGlyph x =>
    change Except.ok { p.skip.toMachine with i := addressOf (glyph (p.v.get x)) } = _
    rw [hskip, addressOf, toNat_glyph]
    rfl
  | draw x y n =>
    change Except.ok (p.skip.drawSprite x y n).toMachine = _
    rw [toMachine_drawSprite (p := p.skip) h.i, hskip]
    rfl
  | decimalDigits x =>
    change Except.ok { p.skip.toMachine with
      memory := p.memory.writeBytes p.i.toNat (Machine.digits (p.v.get x)) } = _
    rw [hskip, ← hi]
    rfl
  | store x =>
    have hmemory : { p.skip with memory := p.memory.writeBytes p.i.toNat (p.v.upTo x) }.toMachine =
        { p.toMachine.advance with memory := p.memory.writeBytes p.i.toNat (p.v.upTo x) } :=
      congrArg (fun m => { m with memory := p.memory.writeBytes p.i.toNat (p.v.upTo x) }) hskip
    change Except.ok ({ p.skip with
      memory := p.memory.writeBytes p.i.toNat (p.v.upTo x) }.passIndex x).toMachine = _
    rw [toMachine_passIndex, hmemory, ← hi]
    rfl
  | fetch x =>
    have hv : { p.skip with v := p.v.load (p.memory.readBytes p.i.toNat (x.val + 1)) }.toMachine =
        { p.toMachine.advance with
          v := p.v.load (p.memory.readBytes p.i.toNat (x.val + 1)) } :=
      congrArg (fun m => { m with v := p.v.load (p.memory.readBytes p.i.toNat (x.val + 1)) }) hskip
    change Except.ok ({ p.skip with
      v := p.v.load (p.memory.readBytes p.i.toNat (x.val + 1)) }.passIndex x).toMachine = _
    rw [toMachine_passIndex, hv, ← hi]
    rfl

end Chip8.Processor
