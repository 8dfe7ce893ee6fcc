import Chip8.Proofs.Machine.Operation
import Chip8.Proofs.Machine.Outcome
import Chip8.Proofs.Sprite
import Mathlib.Data.List.Infix

/-! Which instructions depend on which flags. Two machines that differ in flags alone do the same
until one of them meets an instruction that depends on a flag in which they differ. -/
namespace Chip8

namespace Machine

variable {m n : Machine} {i : Instruction} {flags : Flags} {points : List UInt16}

def under (m : Machine) (flags : Flags) (points : List UInt16) : Machine :=
  { m with flags := flags, breakpoints := points }

/-- Whether what an instruction does depends on a flag. -/
def senses (m : Machine) (i : Instruction) : Flag → Bool
  | .debug | .pause | .lenient => false
  | .shift =>
    match i with
    | .shiftRight x y | .shiftLeft x y => m.v.get x != m.v.get y
    | _ => false
  | .dmaInc =>
    match i with
    | .store _ | .fetch _ => true
    | _ => false
  | .vfReset =>
    match i with
    | .or _ _ | .and _ _ | .xor _ _ => true
    | _ => false
  | .screenWrap =>
    match i with
    | .draw x y n => decide (56 < (m.v.get x).toNat % 64 ∨ 32 < (m.v.get y).toNat % 32 + n.val)
    | _ => false

/-- Whether what the word at `pc` does depends on a flag. -/
def heeds (m : Machine) (f : Flag) : Bool :=
  match Instruction.decode m.nextWord with
  | none => decide (f = .lenient)
  | some i => m.senses i f

theorem setBitwise_under (hv : flags.dialect.vfReset = m.flags.dialect.vfReset) (x : Register)
    (c : UInt8) :
    (m.under flags points).setBitwise x c = (m.setBitwise x c).under flags points := by
  simp only [setBitwise, under, hv]

theorem passIndex_under (hd : flags.dialect.dmaInc = m.flags.dialect.dmaInc) (x : Register) :
    (m.under flags points).passIndex x = (m.passIndex x).under flags points := by
  simp only [passIndex, under, hd]
  split <;> rfl

theorem shiftSource_under {x y : Register}
    (hs : flags.dialect.shift = m.flags.dialect.shift ∨ m.v.get x = m.v.get y) :
    (m.under flags points).shiftSource x y = m.shiftSource x y := by
  rcases hs with hs | hs
  · simp only [shiftSource, under, hs]
  · have hsame : ∀ c : Bool, m.v.get (if c then y else x) = m.v.get x := by
      intro c
      cases c with
      | false => rfl
      | true => exact hs.symm
    exact (hsame _).trans (hsame _).symm

theorem drawSprite_under {x y : Register} {k : Fin 16}
    (hw : flags.dialect.screenWrap = m.flags.dialect.screenWrap ∨
      (m.v.get x).toNat % 64 ≤ 56 ∧ (m.v.get y).toNat % 32 + k.val ≤ 32) :
    (m.under flags points).drawSprite x y k = (m.drawSprite x y k).under flags points := by
  have hd : m.screen.draw (m.v.get x).toNat (m.v.get y).toNat
        (m.memory.readBytes m.i.toNat k.val) flags.dialect.screenWrap =
      m.screen.draw (m.v.get x).toNat (m.v.get y).toNat
        (m.memory.readBytes m.i.toNat k.val) m.flags.dialect.screenWrap := by
    rcases hw with hw | ⟨hx, hy⟩
    · rw [hw]
    · have hl : (m.v.get y).toNat % 32 + (m.memory.readBytes m.i.toNat k.val).length ≤ 32 := by
        rw [Memory.length_readBytes]
        exact hy
      rw [Screen.draw_of_le hx hl, Screen.draw_of_le hx hl m.flags.dialect.screenWrap]
  simp only [drawSprite, under, hd]

/-- An instruction does the same under other flags, unless it depends on one that differs. -/
theorem execute_under (h : ∀ f, m.flags.isOn f ≠ flags.isOn f → m.senses i f = false) :
    (m.under flags points).execute i = (m.execute i).map (·.under flags points) := by
  have hf : ∀ f, m.senses i f = true → flags.isOn f = m.flags.isOn f := by
    intro f hs
    by_contra hne
    rw [h f (Ne.symm hne)] at hs
    cases hs
  cases i
  case ret =>
    have hs : (m.under flags points).stack = m.stack := rfl
    simp only [execute, hs]
    cases m.stack <;> rfl
  case call a =>
    have hs : (m.under flags points).stack = m.stack := rfl
    simp only [execute, hs]
    split <;> rfl
  case or x y | and x y | xor x y =>
    exact congrArg Except.ok (setBitwise_under (m := m.advance) (hf .vfReset rfl) x _)
  case store x =>
    exact congrArg Except.ok (passIndex_under (hf .dmaInc rfl) x
      (m := { m.advance with memory := m.memory.writeBytes m.i.toNat (m.v.upTo x) }))
  case fetch x =>
    exact congrArg Except.ok (passIndex_under (hf .dmaInc rfl) x
      (m := { m.advance with v := m.v.load (m.memory.readBytes m.i.toNat (x.val + 1)) }))
  case shiftRight x y | shiftLeft x y =>
    have hs : flags.dialect.shift = m.flags.dialect.shift ∨ m.v.get x = m.v.get y := by
      by_cases he : m.v.get x = m.v.get y
      · exact Or.inr he
      · exact Or.inl (hf .shift (by simp [senses, he]))
    simp only [execute, shiftSource_under hs]
    rfl
  case draw x y k =>
    have hw : flags.dialect.screenWrap = m.flags.dialect.screenWrap ∨
        (m.v.get x).toNat % 64 ≤ 56 ∧ (m.v.get y).toNat % 32 + k.val ≤ 32 := by
      by_cases he : 56 < (m.v.get x).toNat % 64 ∨ 32 < (m.v.get y).toNat % 32 + k.val
      · exact Or.inl (hf .screenWrap (by simp [senses, he]))
      · exact Or.inr (by omega)
    exact congrArg Except.ok (drawSprite_under (m := m.advance) hw)
  all_goals rfl

/-- The word at `pc` does the same under other flags, unless it depends on one that differs. -/
theorem attempt_under (h : ∀ f, m.flags.isOn f ≠ flags.isOn f → m.heeds f = false) :
    (m.under flags points).attempt = m.attempt.map (·.under flags points) := by
  have hw : (m.under flags points).nextWord = m.nextWord := rfl
  unfold attempt
  rw [hw]
  unfold heeds at h
  cases hd : Instruction.decode m.nextWord with
  | none =>
    have hl : flags.lenient = m.flags.lenient := by
      by_contra hne
      have hn := h .lenient (Ne.symm hne)
      simp [hd] at hn
    have hu : (m.under flags points).flags.lenient = m.flags.lenient := hl
    dsimp only
    rw [hu]
    cases m.flags.lenient <;> rfl
  | some i =>
    simp only [hd] at h
    exact execute_under h

theorem outcome_under
    (h : m.activity = .running → ∀ f, m.flags.isOn f ≠ flags.isOn f → m.heeds f = false) :
    (m.under flags points).outcome = m.outcome.map (Option.map (·.under flags points)) :=
  outcome_map rfl rfl (fun ha => attempt_under (h ha)) fun _ _ _ => rfl

/-- No word depends on the flags that are for debugging. -/
theorem heeds_of_debugging {f : Flag} (hf : f = .debug ∨ f = .pause) (m : Machine) :
    m.heeds f = false := by
  unfold heeds
  rcases hf with rfl | rfl
  · cases Instruction.decode m.nextWord <;> rfl
  · cases Instruction.decode m.nextWord <;> rfl

def reflagged (m : Machine) (flags : Flags) : Machine :=
  m.under { flags with pause := m.flags.pause } m.breakpoints

theorem tick_reflagged
    (h : m.Fetches → ∀ f, m.flags.isOn f ≠ flags.isOn f → m.heeds f = false) :
    (m.reflagged flags).tick.machine = m.tick.machine.reflagged flags ∧
      (m.reflagged flags).tick.result = m.tick.result := by
  cases hp : m.flags.pause with
  | true =>
    have hr : (m.reflagged flags).flags.pause = true := hp
    rw [tick_of_pause hr, tick_of_pause hp]
    exact ⟨rfl, rfl⟩
  | false =>
    have hr : (m.reflagged flags).flags.pause = false := hp
    have ho : (m.reflagged flags).outcome = m.outcome.map
        (Option.map (·.under { flags with pause := m.flags.pause } m.breakpoints)) := by
      apply outcome_under
      intro ha f hf
      -- the pause does not differ, and no word depends on it
      cases f with
      | pause => exact heeds_of_debugging (Or.inr rfl) m
      | debug | lenient | shift | dmaInc | vfReset | screenWrap => exact h ⟨hp, ha⟩ _ hf
    rw [(tick_eq_settle hr).1, (tick_eq_settle hr).2, (tick_eq_settle hp).1,
      (tick_eq_settle hp).2, ho]
    cases hm : m.outcome with
    | error f => exact ⟨rfl, rfl⟩
    | ok o =>
      cases o with
      | none => exact ⟨rfl, rfl⟩
      | some n =>
        obtain ⟨hf, -, hb, -⟩ := sameSetup_of_outcome hm
        constructor
        · simp only [Except.map, Option.map_some, settle, machine_complete, reflagged, under, hf,
            hb]
        · simp only [Except.map, Option.map_some, settle, result_complete, under, hb]
          rfl

end Machine

namespace Operation

/-- The operations that run a program without a debugger: ticks, timers and keys. -/
def plays : Operation → Bool
  | .tick | .tickTimers | .setKey _ _ => true
  | _ => false

/-- No tick among the operations meets a word that depends on a flag in which the machine differs
from the flags. -/
def Unheeded (m : Machine) (flags : Flags) (ops : List Operation) : Prop :=
  ∀ earlier, earlier ++ [.tick] <+: ops → (run m earlier).Fetches →
    ∀ f, m.flags.isOn f ≠ flags.isOn f → (run m earlier).heeds f = false

theorem isOn_apply {m : Machine} {op : Operation} (ho : op.plays) {f : Flag} (hf : f ≠ .pause) :
    (op.apply m).machine.flags.isOn f = m.flags.isOn f := by
  cases op with
  | tick =>
    rw [apply, machine_answer, (Machine.ticksTo_tick m).flags]
    cases f with
    | pause => exact absurd rfl hf
    | debug | lenient | shift | dmaInc | vfReset | screenWrap => rfl
  | setKey key down =>
    rw [apply, machine_answer, Machine.machine_setKey]
  | tickTimers => rfl
  | singlestep | multistep | setV | load | reset | setBreak | unsetBreak | reseed | setFlags =>
    cases ho

theorem Unheeded.tail {m : Machine} {flags : Flags} {op : Operation} {ops : List Operation}
    (h : Unheeded m flags (op :: ops)) (ho : op.plays) :
    Unheeded (op.apply m).machine flags ops := by
  intro earlier he hr f hf
  by_cases hp : f = .pause
  · exact Machine.heeds_of_debugging (Or.inr hp) _
  · rw [isOn_apply ho hp] at hf
    exact h (op :: earlier) (List.prefix_cons_inj op |>.mpr he) hr f hf

theorem Unheeded.of_prefix {m : Machine} {flags : Flags} {earlier ops : List Operation}
    (h : Unheeded m flags ops) (he : earlier <+: ops) : Unheeded m flags earlier :=
  fun first hf => h first (hf.trans he)

theorem apply_reflagged {m : Machine} {flags : Flags} {op : Operation} (ho : op.plays)
    (h : op = .tick → m.Fetches → ∀ f, m.flags.isOn f ≠ flags.isOn f → m.heeds f = false) :
    (op.apply (m.reflagged flags)).machine = (op.apply m).machine.reflagged flags ∧
      (op.apply (m.reflagged flags)).result = (op.apply m).result := by
  cases op with
  | tick =>
    obtain ⟨hm, hr⟩ := Machine.tick_reflagged (h rfl)
    exact ⟨hm, congrArg (Except.map fun _ => Answer.done) hr⟩
  | setKey key down =>
    rcases Nat.lt_or_ge key 16 with hk | hk
    · rw [apply, apply, Machine.setKey_of_lt hk, Machine.setKey_of_lt hk]
      exact ⟨rfl, rfl⟩
    · rw [apply, apply, Machine.setKey_of_le hk, Machine.setKey_of_le hk]
      exact ⟨rfl, rfl⟩
  | tickTimers => exact ⟨rfl, rfl⟩
  | singlestep | multistep | setV | load | reset | setBreak | unsetBreak | reseed | setFlags =>
    cases ho

theorem run_reflagged {m : Machine} {flags : Flags} {ops : List Operation}
    (ho : ∀ op ∈ ops, op.plays) (h : Unheeded m flags ops) :
    run (m.reflagged flags) ops = (run m ops).reflagged flags ∧
      answers (m.reflagged flags) ops = answers m ops := by
  induction ops generalizing m with
  | nil => exact ⟨rfl, rfl⟩
  | cons op ops ih =>
    have hop := ho op (List.mem_cons_self ..)
    have hhead : op = .tick → m.Fetches →
        ∀ f, m.flags.isOn f ≠ flags.isOn f → m.heeds f = false := by
      rintro rfl hm
      exact h [] ⟨ops, rfl⟩ hm
    obtain ⟨hm, hr⟩ := apply_reflagged hop hhead
    obtain ⟨hrun, hans⟩ := ih (fun o hmem => ho o (List.mem_cons_of_mem op hmem)) (h.tail hop)
    constructor
    · calc
        run (m.reflagged flags) (op :: ops) = run (op.apply (m.reflagged flags)).machine ops := rfl
        _ = run ((op.apply m).machine.reflagged flags) ops := by rw [hm]
        _ = (run m (op :: ops)).reflagged flags := hrun
    · rw [answers, answers, hr, hm, hans]

instance (m : Machine) (flags : Flags) (ops : List Operation) : Decidable (Unheeded m flags ops) :=
  decidable_of_iff
    (∀ earlier ∈ ops.inits, earlier ++ [.tick] <+: ops → (run m earlier).Fetches →
      ∀ f ∈ Flag.all, m.flags.isOn f ≠ flags.isOn f → (run m earlier).heeds f = false) (by
    have hall : ∀ f : Flag, f ∈ Flag.all := by
      intro f
      cases f <;> decide
    constructor
    · intro h earlier he hm f
      have hi : earlier ∈ ops.inits := (List.mem_inits _ _).mpr ((List.prefix_append _ _).trans he)
      exact h earlier hi he hm f (hall f)
    · intro h earlier _ he hm f _
      exact h earlier he hm f)

end Operation

namespace Machine

/-- Machines that differ in flags other than the pause answer the same and differ in nothing else,
as long as the first meets no word that depends on a flag in which they differ. -/
theorem flags_act_only_where_heeded {m n : Machine} {ops : List Operation}
    (hn : n = { m with flags := n.flags }) (hp : n.flags.pause = m.flags.pause)
    (ho : ∀ op ∈ ops, op.plays) (hu : Operation.Unheeded m n.flags ops) :
    Operation.answers n ops = Operation.answers m ops ∧
      ∀ earlier, earlier <+: ops →
        Operation.run n earlier =
          { Operation.run m earlier with
            flags := { n.flags with pause := (Operation.run m earlier).flags.pause } } := by
  have hr : m.reflagged n.flags = n := by
    rw [reflagged, ← hp]
    exact hn.symm
  constructor
  · have ha := (Operation.run_reflagged ho hu).2
    rw [hr] at ha
    exact ha
  · intro earlier he
    have hrun := (Operation.run_reflagged (fun op hop => ho op (he.subset hop)) (hu.of_prefix he)).1
    rw [hr] at hrun
    exact hrun

/-- Everything but the pause is switched on in the second machine. A sprite that just fits into the
lower right corner and a shift of a register into itself do not show it. -/
theorem flags_unheeded_in_the_corner :
    let m := Operation.run (.boot {} (.ofSeed 0))
      [.load [0x60, 0x38, 0x61, 0x1f, 0xa0, 0x50, 0xd0, 0x11, 0x81, 0x16], .reset]
    let n := { m with flags := ⟨true, false, true, ⟨true, true, true, true⟩⟩ }
    let ops : List Operation := [.tick, .tick, .tick, .setKey 3 true, .tick, .tick]
    Operation.answers n ops = Operation.answers m ops ∧
      Operation.run n ops =
        { Operation.run m ops with
          flags := { n.flags with pause := (Operation.run m ops).flags.pause } } ∧
      (Operation.run m ops).screen.get 59 31 = true := by
  intro m n ops
  have hrun : Operation.Unheeded m n.flags ops ∧
      (Operation.run m ops).screen.get 59 31 = true := by decide +kernel
  have ho : ∀ op ∈ ops, op.plays = true := by decide
  obtain ⟨ha, hr⟩ := flags_act_only_where_heeded (m := m) (n := n) rfl rfl ho hrun.1
  exact ⟨ha, hr ops (List.prefix_refl ops), hrun.2⟩

end Machine

end Chip8
