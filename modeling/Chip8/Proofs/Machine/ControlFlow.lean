import Chip8.Proofs.Codec
import Chip8.Proofs.Keypad
import Chip8.Proofs.Machine.Effects

/-! Where a machine goes from each instruction. -/
namespace Chip8.Machine

variable {m n : Machine} {i : Instruction}

/-- Where `pc` is after an instruction that succeeds. -/
def pcAfter (m : Machine) : Instruction → Option Address
  | .ret => m.stack.head?
  | .jump a | .call a => some a
  | .jumpFrom a => some (a + BitVec.ofNat 12 (m.v.get v0).toNat)
  | .awaitKey _ => some m.pc
  | .skipIfByte x b => some (m.skipIf (m.v.get x == b)).pc
  | .skipUnlessByte x b => some (m.skipIf (m.v.get x != b)).pc
  | .skipIfEqual x y => some (m.skipIf (m.v.get x == m.v.get y)).pc
  | .skipUnlessEqual x y => some (m.skipIf (m.v.get x != m.v.get y)).pc
  | .skipIfKey x => some (m.skipIf (m.keypad.isHeld (m.namedKey x))).pc
  | .skipUnlessKey x => some (m.skipIf (!m.keypad.isHeld (m.namedKey x))).pc
  | _ => some (m.pc + 2)

theorem pc_of_execute (h : m.execute i = .ok n) : m.pcAfter i = some n.pc := by
  cases i
  case ret => rw [pcAfter, stack_eq_of_ret h, List.head?_cons]
  case call a =>
    simp only [execute] at h
    split at h <;> cases h
    rfl
  case store x | fetch x =>
    simp only [execute, Except.ok.injEq] at h
    rw [passIndex_eq] at h
    subst h
    rfl
  all_goals
    cases h
    rfl

/-- Where a machine goes from the word `w` at `pc`, told from the digits of the word. There is no
place to go from a return without a call. -/
def destination? (m : Machine) (w : Nat) : Option Nat :=
  let p := m.pc.toNat
  let vx := (m.v.get (lastDigit (w / 256))).toNat
  let vy := (m.v.get (lastDigit (w / 16))).toNat
  let held := m.keypad.isPressed (vx % 16)
  let next := some ((p + 2) % 4096)
  let beyond := some ((p + 4) % 4096)
  match w / 4096 with
  | 0x0 => if w = 0x00ee then m.stack.head?.map BitVec.toNat else next
  | 0x1 | 0x2 => some (w % 4096)
  | 0x3 => if vx = w % 256 then beyond else next
  | 0x4 => if vx ≠ w % 256 then beyond else next
  | 0x5 => if w % 16 = 0 ∧ vx = vy then beyond else next
  | 0x9 => if w % 16 = 0 ∧ vx ≠ vy then beyond else next
  | 0xb => some ((w % 4096 + (m.v.get v0).toNat) % 4096)
  | 0xe =>
    if w % 256 = 0x9e ∧ held = true ∨ w % 256 = 0xa1 ∧ held = false then beyond else next
  | 0xf => if w % 256 = 0x0a then some p else next
  | _ => next

theorem toNat_add_two (a : Address) : (a + 2).toNat = (a.toNat + 2) % 4096 :=
  BitVec.toNat_add a 2

theorem toNat_skipIf (m : Machine) (c : Bool) :
    some (m.skipIf c).pc.toNat =
      if c then some ((m.pc.toNat + 4) % 4096) else some ((m.pc.toNat + 2) % 4096) := by
  cases c with
  | true => exact congrArg some (BitVec.toNat_add m.pc 4)
  | false => exact congrArg some (BitVec.toNat_add m.pc 2)

theorem beq_ofNat_eq_true_iff {b : UInt8} {code : Nat} :
    (b == UInt8.ofNat code) = true ↔ b.toNat = code % 256 := by
  rw [beq_iff_eq, ← UInt8.toNat_inj, UInt8.toNat_ofNat']

theorem isHeld_namedKey (m : Machine) (x : Register) :
    m.keypad.isHeld (m.namedKey x) = m.keypad.isPressed ((m.v.get x).toNat % 16) :=
  (Keypad.isPressed_val m.keypad (m.namedKey x)).symm

theorem pcAfter_of_arithmetic {x y : Register} {last : Nat}
    (h : Instruction.ofArithmetic? x y last = some i) : m.pcAfter i = some (m.pc + 2) := by
  unfold Instruction.ofArithmetic? at h
  split at h <;> cases h <;> rfl

theorem pcAfter_of_device {x : Register} {b : Nat} (h : Instruction.ofDevice? x b = some i) :
    m.pcAfter i = if b = 0x0a then some m.pc else some (m.pc + 2) := by
  unfold Instruction.ofDevice? at h
  split at h <;> cases h <;> rfl

/-- The digits of a word tell the same as the instruction it stands for, and any other word is
passed over. -/
theorem destination?_eq (m : Machine) (w : UInt16) :
    m.destination? w.toNat =
      ((Instruction.decode w).elim (some (m.pc + 2)) m.pcAfter).map BitVec.toNat := by
  unfold Instruction.decode
  dsimp only
  -- one case for each first digit, in order
  split
  case h_1 hw =>
    simp only [destination?, hw]
    by_cases hr : w.toNat = 0x00ee
    · simp [hr, pcAfter]
    · by_cases hc : w.toNat = 0x00e0
      · simp [hc, pcAfter]
      · simp [hr, hc]
  case h_2 hw | h_3 hw | h_12 hw =>
    simp [destination?, hw, pcAfter]
  case h_4 hw =>
    simp only [destination?, hw, Option.elim_some, pcAfter, Option.map_some, toNat_skipIf,
      beq_ofNat_eq_true_iff]
  case h_5 hw =>
    simp only [destination?, hw, Option.elim_some, pcAfter, Option.map_some, toNat_skipIf,
      bne, Bool.not_eq_true', ← Bool.not_eq_true, beq_ofNat_eq_true_iff, ne_eq]
  case h_6 hw | h_10 hw =>
    simp only [destination?, hw]
    by_cases hl : w.toNat % 16 = 0
    · simp [hl, pcAfter, toNat_skipIf, UInt8.toNat_inj]
    · simp [hl]
  case h_7 hw | h_8 hw | h_11 hw | h_13 hw | h_14 hw =>
    simp only [destination?, hw, Option.elim_some, pcAfter, Option.map_some, toNat_add_two]
  case h_9 hw =>
    simp only [destination?, hw]
    cases hi : Instruction.ofArithmetic? _ _ (w.toNat % 16) with
    | none => simp
    | some i => simp [pcAfter_of_arithmetic hi]
  case h_15 hw =>
    simp only [destination?, hw]
    by_cases hs : w.toNat % 256 = 0x9e
    · simp [hs, pcAfter, toNat_skipIf, isHeld_namedKey]
    · by_cases hu : w.toNat % 256 = 0xa1
      · simp [hu, pcAfter, toNat_skipIf, isHeld_namedKey]
      · simp [hs, hu]
  case h_16 hw =>
    simp only [destination?, hw]
    cases hi : Instruction.ofDevice? _ (w.toNat % 256) with
    | none =>
      have hb : w.toNat % 256 ≠ 0x0a := by
        intro hb
        rw [hb] at hi
        cases hi
      simp [hb]
    | some i =>
      rw [Option.elim_some, pcAfter_of_device hi, apply_ite (Option.map BitVec.toNat)]
      simp
  case h_17 =>
    -- a word has no other first digit
    have hw := w.toNat_lt
    simp only [imp_false] at *
    omega

/-- An attempt that succeeds goes where the digits of the word at `pc` tell. -/
theorem destination?_of_attempt (h : m.attempt = .ok n) :
    m.destination? m.nextWord.toNat = some n.pc.toNat := by
  rw [destination?_eq]
  unfold attempt at h
  cases hd : Instruction.decode m.nextWord with
  | none =>
    simp only [hd] at h
    split at h <;> cases h
    rfl
  | some i =>
    simp only [hd] at h
    rw [Option.elim_some, pc_of_execute h, Option.map_some]

/-- The word at `pc` is made of the byte there and the next one, which is the first byte of memory
if `pc` is at the last. -/
theorem toNat_nextWord (m : Machine) :
    m.nextWord.toNat =
      256 * (m.memory.read m.pc.toNat).toNat + (m.memory.read ((m.pc.toNat + 1) % 4096)).toNat := by
  have hnext : m.memory.read ((m.pc.toNat + 1) % 4096) = m.memory.read (m.pc.toNat + 1) :=
    Memory.read_wrap m.memory (m.pc.toNat + 1)
  rw [nextWord, Memory.word, toNat_wordOfBytes, hnext]

/-- A tick that fetches a word and does not fail goes where the digits of the word tell, from any
address, also from the end of memory. -/
theorem control_flow {m : Machine} (hf : m.Fetches)
    (hr : ∀ f, m.tick.result = .error f → f.isBreakpoint = true) :
    m.destination? (256 * (m.memory.read m.pc.toNat).toNat +
      (m.memory.read ((m.pc.toNat + 1) % 4096)).toNat) = some m.tick.machine.pc.toNat := by
  obtain ⟨n, hm, hmachine, -⟩ := exists_attempt_of_tick hf hr
  rw [← toNat_nextWord, destination?_of_attempt hm, hmachine, machine_complete]

/-- A skip whose word stands half at the last address and half at the first goes to address 3. -/
theorem control_flow_over_the_end :
    let m := Operation.run (boot {} (.ofSeed 0))
      [.load [0x60, 0x30, 0x61, 0x30, 0xaf, 0xff, 0xf1, 0x55, 0x1f, 0xff], .reset, .multistep 5]
    m.pc = 0xfff ∧ m.nextWord = 0x3030 ∧ m.destination? 0x3030 = some 3 ∧
      m.tick.machine.pc.toNat = 3 := by
  intro m
  have hrun : m.Fetches ∧ m.pc = 0xfff ∧ m.nextWord = 0x3030 ∧ m.tick.result = .ok () ∧
      m.destination? 0x3030 = some 3 ∧ 256 * (m.memory.read m.pc.toNat).toNat +
        (m.memory.read ((m.pc.toNat + 1) % 4096)).toNat = 0x3030 := by decide +kernel
  obtain ⟨hf, hpc, hw, hr, hd, hbytes⟩ := hrun
  have hok : ∀ f, m.tick.result = .error f → f.isBreakpoint = true := by
    intro f h
    rw [hr] at h
    cases h
  have hgo := control_flow hf hok
  rw [hbytes, hd] at hgo
  exact ⟨hpc, hw, hd, (Option.some.inj hgo).symm⟩

end Chip8.Machine
