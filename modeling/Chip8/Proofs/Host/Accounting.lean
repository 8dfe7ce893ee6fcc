import Chip8.Proofs.Host.Frame
import Chip8.Proofs.Machine.KeyWait

/-! What a frame does to the machine: how many ticks it takes, how many of them count, and when the
timers count down. -/
namespace Chip8

namespace Machine

variable {m : Machine} {k : Nat}

theorem cycle_afterTicks (m : Machine) (k : Nat) :
    m.cycle ≤ (m.afterTicks k).cycle ∧ (m.afterTicks k).cycle ≤ m.cycle + k := by
  induction k with
  | zero => exact ⟨Nat.le_refl _, Nat.le_refl _⟩
  | succ k ih =>
    obtain ⟨hlow, hhigh⟩ := (ticksTo_tick (m.afterTicks k)).cycle
    rw [afterTicks]
    omega

theorem Runs.of_le {j : Nat} (h : m.Runs k) (hj : j ≤ k) : m.Runs j :=
  fun i hi => h i (Nat.lt_of_lt_of_le hi hj)

theorem Runs.pause (h : m.Runs k) : (m.afterTicks k).flags.pause = m.flags.pause := by
  induction k with
  | zero => rfl
  | succ k ih =>
    have ht := (ticksTo_tick (m.afterTicks k)).pause.1 (h k (Nat.lt_succ_self k))
    exact ht.trans (ih (h.of_le (Nat.le_succ k)))

/-- Waits for a key, and none went down. -/
def Stalls (m : Machine) : Prop := m.keypad.latch = none ∧ ∃ x, m.activity = .awaitingKey x

theorem Stalls.tick (h : m.Stalls) : m.tick = .ok m () := by
  obtain ⟨hl, x, ha⟩ := h
  exact tick_of_waiting ha (Or.inr hl)

/-- A tick that succeeds counts, unless the machine stalls. -/
theorem cycle_tick (hp : m.flags.pause = false) (hr : m.tick.result = .ok ()) :
    m.Stalls ∨ m.tick.machine.cycle = m.cycle + 1 := by
  have ht := ticksTo_tick m
  generalize m.tick = s at hr ht
  cases ht with
  | paused hpaused =>
    rw [hp] at hpaused
    cases hpaused
  | idle _ ha hl => exact Or.inl ⟨hl, _, ha⟩
  | received => exact Or.inr (by simp [receiveKey, advance, setRegister])
  | refused => cases hr
  | completed _ _ hn => exact Or.inr (by simp [(sameSetup_of_attempt hn).cycle])

/-- A machine that comes to stall cannot go on while it only ticks, so that all its ticks counted if
it does not stall in the end. -/
theorem Runs.cycle (h : m.Runs k) (hp : m.flags.pause = false) :
    (m.afterTicks k).Stalls ∨ (m.afterTicks k).cycle = m.cycle + k := by
  induction k with
  | zero => exact Or.inr rfl
  | succ k ih =>
    have hk : m.Runs k := h.of_le (Nat.le_succ k)
    rw [afterTicks]
    rcases ih hk with hs | hc
    · rw [hs.tick]
      exact Or.inl hs
    · have hpk : (m.afterTicks k).flags.pause = false := hk.pause.trans hp
      rcases cycle_tick hpk (h k (Nat.lt_succ_self k)) with hs | ht
      · rw [hs.tick]
        exact Or.inl hs
      · rw [hc] at ht
        exact Or.inr ht

theorem run_ticks (m : Machine) (k : Nat) :
    Operation.run m (List.replicate k .tick) = m.afterTicks k := by
  induction k generalizing m with
  | zero => rfl
  | succ k ih =>
    have ht := ih m.tick.machine
    rw [afterTicks_succ] at ht
    exact ht

end Machine

namespace Host

variable {σ : Type} {h : Host σ}

/-- The ticks of a frame that does not fail. -/
theorem ticks_of_frame (hf : ∀ f, ¬ h.Fails f) :
    (h.machine.Runs h.ipf ∧ h.played.machine = h.machine.afterTicks h.ipf) ∨
      ∃ k < h.ipf, ∃ a w, h.machine.Runs k ∧
        (h.machine.afterTicks k).tick.result = .error (.breakpoint a w) ∧
        h.played.machine = h.machine.afterTicks (k + 1) ∧
        h.played.machine.flags.pause = true := by
  rcases h.machine.multistep_cases h.ipf with ⟨-, hr, hm⟩ | ⟨k, hk, f, he, hr, ht, hm⟩
  · exact Or.inl ⟨hr, hm⟩
  · cases f with
    | breakpoint a w =>
      have hp := (Machine.ticksTo_tick (h.machine.afterTicks k)).pause.2 _ ht rfl
      exact Or.inr ⟨k, hk, a, w, hr, ht, hm, (congrArg (·.flags.pause) hm).trans hp⟩
    | _ => exact absurd ⟨he, rfl⟩ (hf _)

theorem played_of_pause (hp : h.machine.flags.pause = true) :
    (∀ f, ¬ h.Fails f) ∧ h.played.machine = h.machine := by
  have hm : ∀ k, h.machine.afterTicks k = h.machine := Machine.afterTicks_of_pause hp
  rcases h.machine.multistep_cases h.ipf with ⟨hr, -, hp⟩ | ⟨k, -, f, -, -, ht, -⟩
  · exact ⟨not_fails_of_ok hr, hp.trans (hm _)⟩
  · rw [hm, Machine.tick_of_pause hp] at ht
    cases ht

variable [Frontend σ]

theorem ipf_frame (h : Host σ) : h.frame.host.ipf = h.ipf := by
  have hf := framesTo_frame h
  generalize h.frame = out at hf
  cases hf with
  | refused | failed => rfl
  | @shown notices =>
    have hu : (h.polled.played.present notices).host.ipf =
        h.polled.played.tickTimers.updateSound.ipf := rfl
    rw [hu, updateSound_eq, tickTimers_eq]
    rfl

theorem ipf_afterFrames (h : Host σ) (k : Nat) : (h.afterFrames k).ipf = h.ipf := by
  induction k with
  | zero => rfl
  | succ k ih => exact (ipf_frame _).trans ih

theorem machine_frame (hp : h.pollAnswer = .ok true) (hf : ∀ f, ¬ h.polled.Fails f) :
    h.frame.host.machine =
      if h.polled.played.machine.flags.pause then h.polled.played.machine
      else h.polled.played.machine.tickTimers := by
  obtain ⟨notices, hframe⟩ := frame_of_lasts hp hf
  rw [hframe]
  exact machine_present _ _

theorem machine_frame_of_pause (ha : h.pollAnswer = .ok true)
    (hp : h.polled.machine.flags.pause = true) : h.frame.host.machine = h.polled.machine := by
  obtain ⟨hf, hm⟩ := played_of_pause hp
  rw [machine_frame ha hf, hm, if_pos hp]

/-- A frame that does not fail takes all its ticks and lets the timers count down, or it stops at a
breakpoint and leaves the timers alone. -/
theorem machine_frame_cases (ha : h.pollAnswer = .ok true)
    (hp : h.polled.machine.flags.pause = false) (hf : ∀ f, ¬ h.polled.Fails f) :
    (h.polled.machine.Runs h.ipf ∧ h.frame.host.machine.flags.pause = false ∧
        h.frame.host.machine = (h.polled.machine.afterTicks h.ipf).tickTimers) ∨
      ∃ k < h.ipf, ∃ a w, h.polled.machine.Runs k ∧
        (h.polled.machine.afterTicks k).tick.result = .error (.breakpoint a w) ∧
        h.frame.host.machine.flags.pause = true ∧
        h.frame.host.machine = h.polled.machine.afterTicks (k + 1) := by
  rcases ticks_of_frame hf with ⟨hr, hm⟩ | ⟨k, hk, a, w, hr, ht, hm, hpause⟩
  · have hpause : h.polled.played.machine.flags.pause = false := by
      rw [hm]
      exact hr.pause.trans hp
    have hframe := machine_frame ha hf
    rw [hpause, if_neg Bool.false_ne_true, hm] at hframe
    refine Or.inl ⟨hr, ?_, hframe⟩
    rw [hframe]
    exact hr.pause.trans hp
  · have hframe := machine_frame ha hf
    rw [hpause, if_pos rfl] at hframe
    refine Or.inr ⟨k, hk, a, w, hr, ht, ?_, hframe.trans hm⟩
    rw [hframe]
    exact hpause

theorem cycle_frame (ha : h.pollAnswer = .ok true) (hp : h.polled.machine.flags.pause = false)
    (hf : ∀ f, ¬ h.polled.Fails f) :
    h.polled.machine.cycle ≤ h.frame.host.machine.cycle ∧
      h.frame.host.machine.cycle ≤ h.polled.machine.cycle + h.ipf ∧
      (h.frame.host.machine.flags.pause = false → h.frame.host.machine.activity = .running →
        h.frame.host.machine.cycle = h.polled.machine.cycle + h.ipf) := by
  rcases machine_frame_cases ha hp hf with ⟨hr, -, hm⟩ | ⟨k, hk, a, w, -, -, hpause, hm⟩
  · obtain ⟨hlow, hhigh⟩ := h.polled.machine.cycle_afterTicks h.ipf
    rw [hm]
    refine ⟨hlow, hhigh, fun _ hrunning => ?_⟩
    rcases hr.cycle hp with ⟨-, x, hx⟩ | hc
    · exact absurd (hx.symm.trans hrunning) nofun
    · exact hc
  · obtain ⟨hlow, hhigh⟩ := h.polled.machine.cycle_afterTicks (k + 1)
    refine ⟨?_, ?_, fun hno => ?_⟩
    · rw [hm]
      exact hlow
    · rw [hm]
      omega
    · rw [hpause] at hno
      cases hno

/-- The frontend lets the machine be, and the frame does not fail, pause it or leave it waiting. -/
structure Idles (h : Host σ) : Prop where
  isOpen : h.pollAnswer = .ok true
  untouched : h.polled.machine = h.machine
  lasts : ∀ f, ¬ h.polled.Fails f
  unpaused : h.frame.host.machine.flags.pause = false
  running : h.frame.host.machine.activity = .running

theorem Idles.frame (hi : h.Idles) :
    h.frame.host.machine = (h.machine.afterTicks h.ipf).tickTimers ∧
      h.frame.host.machine.cycle = h.machine.cycle + h.ipf := by
  have hp : h.polled.machine.flags.pause = false := by
    by_contra hne
    have hpause : h.polled.machine.flags.pause = true := by simpa using hne
    have hend := hi.unpaused
    rw [machine_frame_of_pause hi.isOpen hpause, hpause] at hend
    cases hend
  have hcycle := (cycle_frame hi.isOpen hp hi.lasts).2.2 hi.unpaused hi.running
  rw [hi.untouched] at hcycle
  refine ⟨?_, hcycle⟩
  rcases machine_frame_cases hi.isOpen hp hi.lasts with ⟨-, -, hm⟩ | ⟨_, _, _, _, -, -, hpause, -⟩
  · rw [hi.untouched] at hm
    exact hm
  · rw [hi.unpaused] at hpause
    cases hpause

theorem machine_afterFrames_of_idles {n : Nat} (hi : ∀ j < n, (h.afterFrames j).Idles) :
    (h.afterFrames n).machine.cycle = h.machine.cycle + n * h.ipf ∧
      (h.afterFrames n).machine =
        Operation.run h.machine
          (List.replicate n (List.replicate h.ipf .tick ++ [.tickTimers])).flatten := by
  induction n with
  | zero => exact ⟨by simp [afterFrames], rfl⟩
  | succ n ih =>
    obtain ⟨hcycle, hm⟩ := ih fun j hj => hi j (Nat.lt_succ_of_lt hj)
    obtain ⟨hframe, hcount⟩ := (hi n (Nat.lt_succ_self n)).frame
    rw [ipf_afterFrames] at hframe hcount
    constructor
    · rw [afterFrames, hcount, hcycle, Nat.succ_mul, Nat.add_assoc]
    · rw [afterFrames, hframe, hm, List.replicate_succ', List.flatten_concat, Operation.run_append,
        Operation.run_concat, Machine.run_ticks]
      rfl

/-- A frame of a machine that is not paused is all its ticks and one count of the timers, unless it
ends at a breakpoint that pauses it. At most `ipf` instructions count, and a fault is handed on. -/
theorem frame_accounting (h : Host σ) :
    (h.pollAnswer = .ok true →
      let c := h.polled.machine
      let after := h.frame.host.machine
      (c.flags.pause = true → after = c) ∧
      (c.flags.pause = false → (∀ f, ¬ h.polled.Fails f) →
        ((c.Runs h.ipf ∧ after.flags.pause = false ∧
            after = (c.afterTicks h.ipf).tickTimers) ∨
          ∃ k < h.ipf, ∃ a w, c.Runs k ∧
            (c.afterTicks k).tick.result = .error (.breakpoint a w) ∧
            after.flags.pause = true ∧ after = c.afterTicks (k + 1)) ∧
        c.cycle ≤ after.cycle ∧ after.cycle ≤ c.cycle + h.ipf ∧
        (after.flags.pause = false → after.activity = .running →
          after.cycle = c.cycle + h.ipf)) ∧
      (∀ f, h.polled.Fails f → h.frame.result = .error f ∧
        ∃ k < h.ipf, c.Runs k ∧ (c.afterTicks k).tick.result = .error f ∧
          after = c.afterTicks k)) ∧
    ∀ n, (∀ j < n, (h.afterFrames j).Idles) →
      (h.afterFrames n).machine.cycle = h.machine.cycle + n * h.ipf ∧
        (h.afterFrames n).machine =
          Operation.run h.machine
            (List.replicate n (List.replicate h.ipf .tick ++ [.tickTimers])).flatten := by
  refine ⟨?_, fun n => machine_afterFrames_of_idles⟩
  intro ha c after
  refine ⟨machine_frame_of_pause ha, ?_, ?_⟩
  · intro hp hf
    exact ⟨machine_frame_cases ha hp hf, cycle_frame ha hp hf⟩
  · intro f hf
    obtain ⟨hresult, hhost⟩ := frame_of_fails ha hf
    obtain ⟨k, hk, hr, ht, hm⟩ := Machine.multistep_of_error hf.1
    rw [hf.2, if_neg Bool.false_ne_true] at hm
    exact ⟨hresult, k, hk, hr, ht, (congrArg Host.machine hhost).trans hm⟩

/-- A machine waits for a key, which has just gone down. The end of the wait counts as the first of
four instructions of the frame. -/
theorem frame_accounting_of_key_wait :
    let m := Operation.run (.boot {} (.ofSeed 0))
      [.load [0xf3, 0x0a, 0x73, 0x01, 0x12, 0x02], .reset, .tick, .setKey 11 true]
    let h := (Host.new m Unattended.mk).withIpf 4
    m.cycle = 1 ∧ m.activity = .awaitingKey ⟨3, by decide⟩ ∧
      h.frame.host.machine = (m.afterTicks 4).tickTimers ∧
      h.frame.host.machine.cycle = m.cycle + 4 ∧
      (h.afterFrames 2).machine.cycle = m.cycle + 2 * 4 := by
  intro m h
  have hstart : m.cycle = 1 ∧ m.activity = .awaitingKey ⟨3, by decide⟩ ∧
      m.flags.pause = false := by decide +kernel
  have hrun : ∀ j < 2, ((h.afterFrames j).machine.multistep 4).result = .ok () ∧
      (h.afterFrames j).frame.host.machine.flags.pause = false ∧
      (h.afterFrames j).frame.host.machine.activity = .running := by decide +kernel
  have hidle : ∀ j < 2, (h.afterFrames j).Idles := by
    intro j hj
    obtain ⟨hok, hpause, hrunning⟩ := hrun j hj
    have hipf : (h.afterFrames j).ipf = 4 := ipf_afterFrames h j
    rw [← hipf] at hok
    exact ⟨rfl, rfl, not_fails_of_ok hok, hpause, hrunning⟩
  obtain ⟨hframe, hframes⟩ := frame_accounting h
  have hfirst : h.Idles := hidle 0 (by decide)
  obtain ⟨-, hplays, -⟩ := hframe hfirst.isOpen
  obtain ⟨hcases, -, -, hexact⟩ := hplays hstart.2.2 hfirst.lasts
  have hcycle := hexact hfirst.unpaused hfirst.running
  have hmachine : h.frame.host.machine = (m.afterTicks 4).tickTimers := by
    rcases hcases with ⟨-, -, hm⟩ | ⟨_, _, _, _, -, -, hpaused, -⟩
    · rw [hfirst.untouched] at hm
      exact hm
    · rw [hfirst.unpaused] at hpaused
      cases hpaused
  exact ⟨hstart.1, hstart.2.1, hmachine, hcycle, (hframes 2 hidle).1⟩

end Host

end Chip8
