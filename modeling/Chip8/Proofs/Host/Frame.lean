import Chip8.Host.Basic
import Chip8.Proofs.Machine.Tick

/-! What a frame can come to, and what several frames in a row come to. -/
namespace Chip8

/-- A frontend that brings no input and never closes. -/
structure Unattended where

instance : Frontend Unattended :=
  ⟨fun s m => (s, .ok m true), fun s _ => (s, .ok true), fun _ s => s⟩

namespace Host

variable {σ : Type}

def played (h : Host σ) : Host σ := { h with machine := (h.machine.multistep h.ipf).machine }

/-- The instructions of a frame fail for another reason than a breakpoint. -/
def Fails (h : Host σ) (f : Fault) : Prop :=
  (h.machine.multistep h.ipf).result = .error f ∧ f.isBreakpoint = false

theorem not_fails_of_ok {h : Host σ} (hr : (h.machine.multistep h.ipf).result = .ok ()) (f : Fault) :
    ¬ h.Fails f := by
  rintro ⟨he, -⟩
  rw [hr] at he
  cases he

theorem tickTimers_eq (h : Host σ) :
    h.tickTimers =
      { h with
        machine := if h.machine.flags.pause then h.machine else h.machine.tickTimers } := by
  unfold tickTimers
  split <;> rfl

variable [Frontend σ] {h : Host σ}

theorem updateSound_eq (h : Host σ) :
    h.updateSound =
      { h with
        beeping := h.machine.timers.isBeeping
        frontend :=
          if h.machine.timers.isBeeping = h.beeping then h.frontend
          else Frontend.sound h.machine.timers.isBeeping h.frontend } := by
  unfold updateSound
  dsimp only
  split
  · rename_i hb
    rw [hb]
  · rfl

theorem machine_present (h : Host σ) (notices : Array Notice) :
    (h.present notices).host.machine =
      if h.machine.flags.pause then h.machine else h.machine.tickTimers := by
  have hu : (h.present notices).host.machine = h.tickTimers.updateSound.machine := rfl
  rw [hu, updateSound_eq, tickTimers_eq]

def pollAnswer (h : Host σ) : Except Fault Bool := (Frontend.poll h.frontend h.machine).2.result

def polled (h : Host σ) : Host σ :=
  { h with
    frontend := (Frontend.poll h.frontend h.machine).1
    machine := (Frontend.poll h.frontend h.machine).2.machine }

/-- Everything that a frame can come to. -/
inductive FramesTo (h : Host σ) : Outcome σ Bool → Prop where
  | refused {r : Except Fault Bool} {notices : Array Notice} (hp : h.pollAnswer = r)
      (hr : r ≠ .ok true) : FramesTo h ⟨h.polled, r, notices⟩
  | failed {f : Fault} {notices : Array Notice} (hp : h.pollAnswer = .ok true)
      (hf : h.polled.Fails f) : FramesTo h ⟨h.polled.played, .error f, notices⟩
  | shown {notices : Array Notice} (hp : h.pollAnswer = .ok true)
      (hf : ∀ f, ¬ h.polled.Fails f) : FramesTo h (h.polled.played.present notices)

theorem framesTo_play (hp : h.pollAnswer = .ok true) (notices : Array Notice) :
    h.FramesTo (h.polled.play notices) := by
  unfold play
  dsimp only
  rw [Step.result_after, Step.machine_after]
  split
  · rename_i hr
    exact .shown hp (not_fails_of_ok hr)
  · rename_i a w hr
    refine .shown hp fun f hf => ?_
    rw [Fails, hr] at hf
    cases hf.1
    cases hf.2
  · rename_i f hne hr
    refine .failed hp ⟨hr, ?_⟩
    cases f with
    | breakpoint a w => exact absurd rfl (hne a w)
    | _ => rfl

theorem framesTo_frame (h : Host σ) : h.FramesTo h.frame := by
  unfold frame
  dsimp only
  split
  · rename_i hr
    exact framesTo_play hr _
  · rename_i hr
    exact .refused hr nofun
  · rename_i f hr
    exact .refused hr nofun

theorem frame_of_refused (hp : h.pollAnswer ≠ .ok true) :
    h.frame.result = h.pollAnswer ∧ h.frame.host = h.polled := by
  have ht := framesTo_frame h
  generalize h.frame = out at ht
  cases ht with
  | refused ha => exact ⟨ha.symm, rfl⟩
  | failed ha | shown ha => exact absurd ha hp

theorem frame_of_fails {f : Fault} (hp : h.pollAnswer = .ok true) (hf : h.polled.Fails f) :
    h.frame.result = .error f ∧ h.frame.host = h.polled.played := by
  have ht := framesTo_frame h
  generalize h.frame = out at ht
  cases ht with
  | refused ha hr => exact absurd (ha.symm.trans hp) hr
  | failed _ hg =>
    have he := hf.1.symm.trans hg.1
    cases he
    exact ⟨rfl, rfl⟩
  | shown _ hno => exact absurd hf (hno f)

theorem frame_of_lasts (hp : h.pollAnswer = .ok true) (hf : ∀ f, ¬ h.polled.Fails f) :
    ∃ notices, h.frame = h.polled.played.present notices := by
  have ht := framesTo_frame h
  generalize h.frame = out at ht
  cases ht with
  | refused ha hr => exact absurd (ha.symm.trans hp) hr
  | failed _ hg => exact absurd hg (hf _)
  | shown => exact ⟨_, rfl⟩

/-- The host after `k` frames, whatever they came to. -/
def afterFrames (h : Host σ) : Nat → Host σ
  | 0 => h
  | k + 1 => (h.afterFrames k).frame.host

theorem afterFrames_succ (h : Host σ) (k : Nat) :
    h.frame.host.afterFrames k = h.afterFrames (k + 1) := by
  induction k with
  | zero => rfl
  | succ k ih => exact congrArg (fun h => h.frame.host) ih

def GoesOn (h : Host σ) (k : Nat) : Prop := ∀ j < k, (h.afterFrames j).frame.result = .ok true

theorem goesOn_succ {k : Nat} (hf : h.frame.result = .ok true) (hk : h.frame.host.GoesOn k) :
    h.GoesOn (k + 1) := by
  intro j hj
  cases j with
  | zero => exact hf
  | succ j =>
    rw [← afterFrames_succ]
    exact hk j (by omega)

theorem runFor?_of_ok (hr : h.frame.result = .ok true) (notices : Array Notice) (limit : Nat) :
    h.runFor? notices (limit + 1) =
      h.frame.host.runFor? (notices ++ h.frame.notices) limit := by
  simp [runFor?, hr]

theorem runFor?_of_stop (hr : h.frame.result ≠ .ok true) (notices : Array Notice) (limit : Nat) :
    h.runFor? notices (limit + 1) =
      some ⟨h.frame.host, h.frame.result.map fun _ => (), notices ++ h.frame.notices⟩ := by
  unfold runFor?
  dsimp only
  split
  · rename_i ht
    exact absurd ht hr
  · rename_i ht
    rw [ht]
    rfl
  · rename_i f ht
    rw [ht]
    rfl

/-- Frames follow each other up to the first that does not leave the frontend open. -/
theorem runFor?_cases (h : Host σ) (notices : Array Notice) (limit : Nat) :
    (h.GoesOn limit ∧ h.runFor? notices limit = none) ∨
      ∃ k < limit, h.GoesOn k ∧ (h.afterFrames k).frame.result ≠ .ok true ∧
        ∃ told, h.runFor? notices limit =
          some ⟨h.afterFrames (k + 1), (h.afterFrames k).frame.result.map fun _ => (), told⟩ := by
  induction limit generalizing h notices with
  | zero => exact Or.inl ⟨fun j hj => by omega, rfl⟩
  | succ limit ih =>
    by_cases hr : h.frame.result = .ok true
    · rw [runFor?_of_ok hr]
      rcases ih h.frame.host (notices ++ h.frame.notices) with
        ⟨hg, hn⟩ | ⟨k, hk, hg, hne, told, hn⟩
      · exact Or.inl ⟨goesOn_succ hr hg, hn⟩
      · rw [afterFrames_succ] at hne
        rw [afterFrames_succ, afterFrames_succ] at hn
        exact Or.inr ⟨k + 1, by omega, goesOn_succ hr hg, hne, told, hn⟩
    · have hg : h.GoesOn 0 := fun j hj => by omega
      exact Or.inr ⟨0, by omega, hg, hr, _, runFor?_of_stop hr notices limit⟩

end Host

end Chip8
