import Chip8.Proofs.Machine.Breakpoints
import Chip8.Proofs.Processor.Addresses
import Mathlib.Data.List.Infix

/-! The bounds that every processor keeps, whatever is done to it: each address is wrapped before it
is stored, and what is taken from the stack, the latch or the wait was put there within bounds. -/
namespace Chip8

namespace KeyRow

theorem lt_of_latch_setKey {k : KeyRow} (h : ∀ key, k.latch = some key → key < 16) {n key : Nat}
    {down : Bool} (hk : (k.setKey n down).2.latch = some key) : key < 16 := by
  unfold setKey at hk
  split at hk
  · exact h key hk
  · rename_i before hbefore
    split at hk
    · exact h key hk
    · dsimp only at hk
      split at hk
      · cases hk
        exact (Vector.getElem?_eq_some_iff.mp hbefore).1
      · exact h key hk

end KeyRow

namespace Processor

/-- Everything in a processor is in its range. -/
structure InRange (p : Processor) : Prop where
  pc : p.pc.toNat < 4096
  i : p.i.toNat < 4096
  depth : p.stack.size ≤ 16
  returns : ∀ a ∈ p.stack, a.toNat < 4096
  program : p.program.length ≤ 3584
  awaited : ∀ x, p.state = .blockedOnKey x → x < 16
  latched : ∀ key, p.keys.latch = some key → key < 16
  breakpoints : p.breakpoints.Nodup

namespace InRange

variable {p : Processor}

theorem boot (flags : Flags) (random : Keystream) : (Processor.boot flags random).InRange where
  pc := (by decide : entry.toNat < 4096)
  i := (by decide : (0 : UInt16).toNat < 4096)
  depth := Nat.zero_le _
  returns := nofun
  program := Nat.zero_le _
  awaited := nofun
  latched := nofun
  breakpoints := List.nodup_nil

/-! What is changed one part at a time -/

theorem withPc (h : p.InRange) {a : UInt16} (ha : a.toNat < 4096) : { p with pc := a }.InRange :=
  { h with pc := ha }

theorem withI (h : p.InRange) {a : UInt16} (ha : a.toNat < 4096) : { p with i := a }.InRange :=
  { h with i := ha }

theorem withV (h : p.InRange) (v : Registers) : { p with v := v }.InRange := { h with }

theorem withMemory (h : p.InRange) (memory : Memory) : { p with memory := memory }.InRange :=
  { h with }

theorem withScreen (h : p.InRange) (screen : Screen) : { p with screen := screen }.InRange :=
  { h with }

theorem withRandom (h : p.InRange) (random : Keystream) : { p with random := random }.InRange :=
  { h with }

theorem skip (h : p.InRange) : p.skip.InRange := h.withPc (wrapWord_lt _)

theorem skipIf (h : p.InRange) (condition : Bool) : (p.skipIf condition).InRange := by
  unfold Processor.skipIf
  split
  · exact h.skip
  · exact h

theorem setRegister (h : p.InRange) (x : Register) (b : UInt8) : (p.setRegister x b).InRange :=
  h.withV _

theorem setBitwise (h : p.InRange) (x : Register) (b : UInt8) : (p.setBitwise x b).InRange := by
  unfold Processor.setBitwise
  dsimp only
  split
  · exact (h.setRegister x b).setRegister vF 0
  · exact h.setRegister x b

theorem passIndex (h : p.InRange) (x : Register) : (p.passIndex x).InRange := by
  unfold Processor.passIndex
  split
  · exact h.withI (wrapWord_lt _)
  · exact h

theorem jump (h : p.InRange) (a : UInt16) : (p.jump a).InRange := h.withPc (wrapWord_lt _)

/-- A return takes an address from the stack, where only addresses in range were put. -/
theorem ret (h : p.InRange) : p.ret.2.InRange := by
  have hpop : { p with stack := p.stack.pop }.InRange := { h with
    depth := by
      have hd := h.depth
      simp only [Array.size_pop]
      omega
    returns := by
      intro a ha
      rw [← Array.mem_toList_iff, Array.toList_pop] at ha
      exact h.returns a (Array.mem_toList_iff.mp (List.mem_of_mem_dropLast ha)) }
  unfold Processor.ret
  dsimp only
  split
  · exact hpop
  · rename_i a ha
    exact hpop.withPc (h.returns a (Array.mem_of_back? ha))

/-- A call puts `pc` on the stack if there is room for it. -/
theorem call (h : p.InRange) (a : UInt16) : (p.call a).2.InRange := by
  unfold Processor.call
  split
  · exact h
  · rename_i hroom
    have hpush : { p with stack := p.stack.push p.pc }.InRange := { h with
      depth := by
        rw [Array.size_push]
        exact Nat.lt_of_not_le hroom
      returns := by
        intro b hb
        rcases Array.mem_push.mp hb with hb | rfl
        · exact h.returns b hb
        · exact h.pc }
    exact hpush.jump a

theorem awaitKey (h : p.InRange) (x : Register) : (p.awaitKey x).InRange := { h with
  pc := wrapWord_lt _
  awaited := by
    intro y hy
    cases hy
    exact x.isLt
  latched := nofun }

theorem finishWait (h : p.InRange) (x key : Nat) : (p.finishWait x key).InRange := { h with
  pc := wrapWord_lt _
  awaited := nofun }

theorem execute (h : p.InRange) (i : Instruction) : (p.execute i).2.InRange := by
  cases i with
  | ret => exact h.ret
  | call a => exact h.call _
  | jump a => exact h.jump _
  | jumpFrom a => exact h.jump _
  | skipIfByte | skipUnlessByte | skipIfEqual | skipUnlessEqual | skipIfKey | skipUnlessKey =>
    exact h.skipIf _
  | or | and | xor => exact h.setBitwise _ _
  | setIndex | addIndex => exact h.withI (wrapWord_lt _)
  | pointAtGlyph x => exact h.withI (toNat_glyph_lt _)
  | awaitKey x => exact h.awaitKey x
  | setByte | addByte | copy | getDelay => exact h.setRegister _ _
  | add | sub | subFrom | shiftRight | shiftLeft => exact (h.setRegister _ _).setRegister vF _
  | random x b => exact (h.withRandom _).setRegister x _
  | clear => exact h.withScreen _
  | draw x y n => exact (h.withScreen _).setRegister vF _
  | decimalDigits x => exact h.withMemory _
  | store x => exact (h.withMemory _).passIndex x
  | fetch x => exact (h.withV _).passIndex x
  | setDelay | setSound => exact { h with }

/-! Ticks and other operations -/

theorem checkBreakpoints (h : p.InRange) (notices : Array Notice) :
    (p.checkBreakpoints notices).processor.InRange := by
  unfold Processor.checkBreakpoints
  split
  · exact { h with }
  · exact h

theorem count (h : p.InRange) (notices : Array Notice) : (p.count notices).processor.InRange := by
  have hcounted : { p with cycle := p.cycle + 1 }.InRange := { h with }
  exact hcounted.checkBreakpoints notices

theorem tickBlocked (h : p.InRange) (x : Nat) : (p.tickBlocked x).processor.InRange := by
  have htaken : { p with keys := p.keys.takePress.2 }.InRange := { h with latched := nofun }
  unfold Processor.tickBlocked
  dsimp only
  split
  · exact (htaken.finishWait x _).count #[]
  · exact htaken

theorem tickRunning (h : p.InRange) : p.tickRunning.processor.InRange := by
  have hbehind : { p with pc := wrapWord (p.pc + 2) }.InRange := h.withPc (wrapWord_lt _)
  unfold Processor.tickRunning
  dsimp only
  split
  · split
    · exact hbehind.count _
    · exact h
  · split
    · exact (hbehind.execute _).withPc h.pc
    · exact (hbehind.execute _).count _

theorem tick (h : p.InRange) : p.tick.processor.InRange := by
  unfold Processor.tick
  split
  · exact h
  · split
    · exact h.tickBlocked _
    · exact h.tickRunning

theorem singlestep (h : p.InRange) : p.singlestep.processor.InRange := by
  have hawake : { p with flags.pause := false }.InRange := { h with }
  exact { hawake.tick with }

theorem continueFor (h : p.InRange) (notices : Array Notice) (n : Nat) :
    (p.continueFor notices n).processor.InRange := by
  induction n generalizing p notices with
  | zero => exact h
  | succ n ih =>
    unfold Processor.continueFor
    dsimp only
    split
    · exact h.tick
    · exact ih h.tick _

theorem multistep (h : p.InRange) (n : Nat) : (p.multistep n).processor.InRange :=
  h.continueFor #[] n

theorem setKey (h : p.InRange) (key : Nat) (down : Bool) :
    (p.setKey key down).processor.InRange :=
  { h with latched := fun _ => KeyRow.lt_of_latch_setKey h.latched }

theorem setV (h : p.InRange) (register : Nat) (b : UInt8) :
    (p.setV register b).processor.InRange := by
  unfold Processor.setV
  split
  · exact { h with }
  · exact h

/-- Only a program that fits is remembered. -/
theorem load (h : p.InRange) (program : List UInt8) : (p.load program).processor.InRange := by
  unfold Processor.load
  split
  · exact h
  · rename_i hfits
    dsimp only
    split
    · exact { h with }
    · exact { h with program := Nat.le_of_not_lt hfits }

theorem reset (h : p.InRange) : p.reset.processor.InRange where
  pc := (by decide : entry.toNat < 4096)
  i := (by decide : (0 : UInt16).toNat < 4096)
  depth := Nat.zero_le _
  returns := nofun
  program := h.program
  awaited := nofun
  latched := nofun
  breakpoints := h.breakpoints

theorem setBreak (h : p.InRange) (a : UInt16) : (p.setBreak a).InRange := by
  unfold Processor.setBreak
  split
  · exact h
  · rename_i ha
    have hnew : a ∉ p.breakpoints := by simpa using ha
    exact { h with breakpoints := Machine.nodup_append_singleton h.breakpoints hnew }

theorem apply (h : p.InRange) (op : Operation) : (p.apply op).processor.InRange := by
  cases op with
  | tick => exact h.tick
  | singlestep => exact h.singlestep
  | multistep n => exact h.multistep n
  | setKey key down => exact h.setKey key down
  | setV register b => exact h.setV register b
  | load program => exact h.load program
  | reset => exact h.reset
  | setBreak a => exact h.setBreak a
  | unsetBreak a => exact { h with breakpoints := Machine.nodup_without a h.breakpoints }
  | reseed seed => exact h.withRandom _
  | tickTimers | setFlags => exact { h with }

theorem run (h : p.InRange) (ops : List Operation) : (p.run ops).InRange := by
  induction ops generalizing p with
  | nil => exact h
  | cons op ops ih => exact ih (h.apply op)

end InRange

/-- Whatever is done to a processor from the moment it is switched on, everything in it stays in its
range. -/
theorem reachable_inRange {p : Processor} (h : p.Reachable) : p.InRange := by
  obtain ⟨random, ops, rfl⟩ := h
  exact (InRange.boot {} random).run ops

/-- A program that calls itself fills the stack and stays in range. -/
theorem inRange_of_endless_calls :
    let p := (boot {} (.ofSeed 0)).run [.load [0x22, 0x00], .reset, .multistep 17]
    p.stack.size = 16 ∧ p.InRange := by
  intro p
  have hs : p.stack.size = 16 := by decide +kernel
  exact ⟨hs, reachable_inRange ⟨.ofSeed 0, _, rfl⟩⟩

end Processor

end Chip8
