import Chip8.Proofs.Host.Frame
import Mathlib.Data.List.Infix

/-! What a host asks of its frontend, and in which order. The buzzer is told to start and to stop in
turn, and is right whenever the screen is shown. -/
namespace Chip8

namespace Frontend

inductive Call where
  | poll (m : Machine)
  | sound (on : Bool)
  | render (m : Machine)

def Call.sound? : Call → Option Bool
  | .sound on => some on
  | _ => none

def sounds (calls : List Call) : List Bool := calls.filterMap Call.sound?

/-- What the buzzer was told last. It starts silent. -/
def lastSound (calls : List Call) : Bool := (sounds calls).getLast?.getD false

def alternating (n : Nat) : List Bool := (List.range n).map fun j => j % 2 == 0

end Frontend

open Frontend

structure Recorder (σ : Type) where
  frontend : σ
  calls : List Call

instance {σ : Type} [Frontend σ] : Frontend (Recorder σ) where
  poll r m :=
    let answer := Frontend.poll r.frontend m
    (⟨answer.1, r.calls ++ [.poll m]⟩, answer.2)
  render r m :=
    let answer := Frontend.render r.frontend m
    (⟨answer.1, r.calls ++ [.render m]⟩, answer.2)
  sound on r := ⟨Frontend.sound on r.frontend, r.calls ++ [.sound on]⟩

namespace Frontend

theorem sounds_append (calls later : List Call) :
    sounds (calls ++ later) = sounds calls ++ sounds later :=
  List.filterMap_append

theorem lastSound_alternating (n : Nat) :
    (alternating n).getLast?.getD false = (n % 2 == 1) := by
  cases n with
  | zero => rfl
  | succ n =>
    have hn : (n % 2 == 0) = ((n + 1) % 2 == 1) := by
      rw [Bool.eq_iff_iff, beq_iff_eq, beq_iff_eq]
      omega
    simp [alternating, List.range_succ, hn]

theorem alternating_succ (n : Nat) :
    alternating (n + 1) = alternating n ++ [!(alternating n).getLast?.getD false] := by
  have hn : (n % 2 == 0) = !(n % 2 == 1) := by
    rcases Nat.mod_two_eq_zero_or_one n with hm | hm
    · rw [hm]
      rfl
    · rw [hm]
      rfl
  rw [lastSound_alternating, ← hn, alternating, List.range_succ, List.map_append]
  rfl

/-- The buzzer was told to start and to stop in turn, and had been told the right thing whenever the
screen was shown. -/
structure Faithful (calls : List Call) : Prop where
  alternates : sounds calls = alternating (sounds calls).length
  right : ∀ earlier m, earlier ++ [.render m] <+: calls → lastSound earlier = m.timers.isBeeping

theorem Faithful.nil : Faithful [] where
  alternates := rfl
  right earlier m h := by simp at h

/-- One call more. Only a change is told to the buzzer, and the screen is shown only when the buzzer
has been told the right thing. -/
theorem Faithful.concat {calls : List Call} {call : Call} (h : Faithful calls)
    (hs : ∀ on, call = .sound on → on = !lastSound calls)
    (hr : ∀ m, call = .render m → lastSound calls = m.timers.isBeeping) :
    Faithful (calls ++ [call]) where
  alternates := by
    rw [sounds_append]
    cases call with
    | poll m | render m =>
      rw [show sounds [_] = [] from rfl, List.append_nil]
      exact h.alternates
    | sound on =>
      have hl : lastSound calls = (alternating (sounds calls).length).getLast?.getD false := by
        rw [← h.alternates]
        rfl
      have hone : sounds [.sound on] = [!lastSound calls] := by
        rw [hs on rfl]
        rfl
      rw [hone, List.length_append, List.length_singleton, alternating_succ, ← hl, ← h.alternates]
  right earlier m hp := by
    rcases List.prefix_concat_iff.mp hp with he | he
    · obtain ⟨hcalls, hlast⟩ := List.append_inj' he rfl
      rw [hcalls]
      exact hr m (List.singleton_inj.mp hlast).symm
    · exact h.right earlier m he

theorem lastSound_poll (calls : List Call) (m : Machine) :
    lastSound (calls ++ [.poll m]) = lastSound calls := by
  simp [lastSound, sounds, Call.sound?]

theorem lastSound_render (calls : List Call) (m : Machine) :
    lastSound (calls ++ [.render m]) = lastSound calls := by
  simp [lastSound, sounds, Call.sound?]

theorem lastSound_sound (calls : List Call) (on : Bool) :
    lastSound (calls ++ [.sound on]) = on := by
  simp [lastSound, sounds, Call.sound?]

end Frontend

namespace Host

variable {σ : Type} {h : Host (Recorder σ)}

/-- The record is faithful, and the host knows what the buzzer was told last. -/
structure InTune (h : Host (Recorder σ)) : Prop where
  faithful : Faithful h.frontend.calls
  beeping : h.beeping = lastSound h.frontend.calls

theorem inTune_new (m : Machine) (frontend : σ) (ipf rate : Nat) :
    InTune (((Host.new m ⟨frontend, []⟩ : Host (Recorder σ)).withIpf ipf).withRate rate) :=
  ⟨Faithful.nil, rfl⟩

theorem InTune.played (ht : h.InTune) : h.played.InTune := ⟨ht.faithful, ht.beeping⟩

theorem InTune.tickTimers (ht : h.InTune) : h.tickTimers.InTune := by
  rw [tickTimers_eq]
  exact ⟨ht.faithful, ht.beeping⟩

def unrecorded (h : Host (Recorder σ)) : Host σ :=
  ⟨h.machine, h.frontend.frontend, h.ipf, h.rate, h.beeping⟩

variable [Frontend σ]

theorem unrecorded_present (h : Host (Recorder σ)) (notices : Array Notice) :
    (h.present notices).host.unrecorded = (h.unrecorded.present notices).host ∧
      (h.present notices).result = (h.unrecorded.present notices).result := by
  have ht : h.tickTimers.unrecorded = h.unrecorded.tickTimers := by
    rw [tickTimers_eq, tickTimers_eq]
    rfl
  have hs : h.tickTimers.updateSound.unrecorded = h.unrecorded.tickTimers.updateSound := by
    rw [← ht, updateSound_eq, updateSound_eq]
    unfold unrecorded
    dsimp only
    split <;> rfl
  have hp : h.unrecorded.present notices =
      ⟨{ h.tickTimers.updateSound.unrecorded with
          frontend := (Frontend.render h.tickTimers.updateSound.unrecorded.frontend
            h.tickTimers.updateSound.unrecorded.machine).1 },
        (Frontend.render h.tickTimers.updateSound.unrecorded.frontend
          h.tickTimers.updateSound.unrecorded.machine).2, notices⟩ := by
    rw [hs]
    rfl
  rw [hp]
  exact ⟨rfl, rfl⟩

/-- A record does not change what is recorded. -/
theorem unrecorded_frame (h : Host (Recorder σ)) :
    h.frame.host.unrecorded = h.unrecorded.frame.host ∧
      h.frame.result = h.unrecorded.frame.result := by
  have ha : h.unrecorded.pollAnswer = h.pollAnswer := rfl
  by_cases hp : h.pollAnswer = .ok true
  · by_cases hf : ∃ f, h.polled.Fails f
    · obtain ⟨f, hf⟩ := hf
      have hfu : h.unrecorded.polled.Fails f := hf
      obtain ⟨hr, hh⟩ := frame_of_fails hp hf
      obtain ⟨hru, hhu⟩ := frame_of_fails (ha.trans hp) hfu
      rw [hr, hh, hru, hhu]
      exact ⟨rfl, rfl⟩
    · have hno : ∀ f, ¬ h.polled.Fails f := not_exists.mp hf
      have hnou : ∀ f, ¬ h.unrecorded.polled.Fails f := hno
      obtain ⟨notices, hh⟩ := frame_of_lasts hp hno
      obtain ⟨told, hhu⟩ := frame_of_lasts (ha.trans hp) hnou
      rw [hh, hhu]
      exact unrecorded_present h.polled.played notices
  · obtain ⟨hr, hh⟩ := frame_of_refused hp
    obtain ⟨hru, hhu⟩ := frame_of_refused (h := h.unrecorded) hp
    rw [hr, hh, hru, hhu]
    exact ⟨rfl, rfl⟩

namespace InTune

theorem polled (ht : h.InTune) : h.polled.InTune where
  faithful := ht.faithful.concat (by rintro on ⟨⟩) (by rintro m ⟨⟩)
  beeping := ht.beeping.trans (lastSound_poll _ _).symm

theorem updateSound (ht : h.InTune) :
    h.updateSound.InTune ∧ h.updateSound.beeping = h.updateSound.machine.timers.isBeeping := by
  rw [updateSound_eq]
  split
  · rename_i hb
    exact ⟨⟨ht.faithful, hb.trans ht.beeping⟩, rfl⟩
  · rename_i hb
    have hchange : h.machine.timers.isBeeping = !lastSound h.frontend.calls := by
      rw [ht.beeping] at hb
      exact Bool.eq_not_of_ne hb
    refine ⟨⟨ht.faithful.concat ?_ (by rintro m ⟨⟩), (lastSound_sound _ _).symm⟩, rfl⟩
    rintro on ⟨⟩
    exact hchange

theorem present (ht : h.InTune) (notices : Array Notice) : (h.present notices).host.InTune := by
  obtain ⟨hs, hb⟩ := ht.tickTimers.updateSound
  have hbeep := hs.beeping.symm.trans hb
  refine ⟨hs.faithful.concat (by rintro on ⟨⟩) ?_, hs.beeping.trans (lastSound_render _ _).symm⟩
  rintro m ⟨⟩
  exact hbeep

theorem frame (ht : h.InTune) : h.frame.host.InTune := by
  have hf := framesTo_frame h
  generalize h.frame = out at hf
  cases hf with
  | refused => exact ht.polled
  | failed => exact ht.polled.played
  | @shown notices => exact ht.polled.played.present notices

theorem afterFrames (ht : h.InTune) (k : Nat) : (h.afterFrames k).InTune := by
  induction k with
  | zero => exact ht
  | succ k ih => exact ih.frame

end InTune

theorem calls_updateSound (h : Host (Recorder σ)) :
    ∃ changes : List Bool, changes.length ≤ 1 ∧
      h.updateSound.frontend.calls = h.frontend.calls ++ changes.map .sound := by
  rw [updateSound_eq]
  dsimp only
  split
  · exact ⟨[], by simp, (List.append_nil _).symm⟩
  · exact ⟨[h.machine.timers.isBeeping], by simp, rfl⟩

/-- The calls at the end of a frame: the buzzer if there is a change, then the screen. -/
theorem calls_present (h : Host (Recorder σ)) (notices : Array Notice) :
    ∃ (changes : List Bool) (shown : Recorder σ), changes.length ≤ 1 ∧
      shown.calls = h.frontend.calls ++ changes.map .sound ∧
      (h.present notices).host.frontend.calls =
        shown.calls ++ [.render (h.present notices).host.machine] ∧
      (h.present notices).result =
        (Frontend.render shown.frontend (h.present notices).host.machine).2 := by
  obtain ⟨changes, hlength, hcalls⟩ := calls_updateSound h.tickTimers
  have htimers : h.tickTimers.frontend = h.frontend := by rw [tickTimers_eq]
  rw [htimers] at hcalls
  exact ⟨changes, h.tickTimers.updateSound.frontend, hlength, hcalls, rfl, rfl⟩

/-- Nothing more is asked of the frontend after the poll. -/
def StopsEarly {σ : Type} [Frontend σ] (h : Host σ) : Prop :=
  h.pollAnswer ≠ .ok true ∨ ∃ f, h.polled.Fails f

theorem calls_frame_of_stopsEarly (hs : h.StopsEarly) :
    h.frame.host.frontend.calls = h.frontend.calls ++ [.poll h.machine] := by
  by_cases hp : h.pollAnswer = .ok true
  · obtain ⟨f, hf⟩ := hs.resolve_left (not_not_intro hp)
    rw [(frame_of_fails hp hf).2]
    rfl
  · rw [(frame_of_refused hp).2]
    rfl

theorem calls_frame (hs : ¬ h.StopsEarly) :
    ∃ (changes : List Bool) (shown : Recorder σ), changes.length ≤ 1 ∧
      shown.calls = h.frontend.calls ++ .poll h.machine :: changes.map .sound ∧
      h.frame.host.frontend.calls = shown.calls ++ [.render h.frame.host.machine] ∧
      h.frame.result = (Frontend.render shown.frontend h.frame.host.machine).2 := by
  obtain ⟨hp, hf⟩ := not_or.mp hs
  obtain ⟨notices, hframe⟩ := frame_of_lasts (not_not.mp hp) (not_exists.mp hf)
  rw [hframe]
  obtain ⟨changes, shown, hlength, hbefore, hafter⟩ := calls_present h.polled.played notices
  refine ⟨changes, shown, hlength, ?_, hafter⟩
  have hpolled : h.polled.played.frontend.calls = h.frontend.calls ++ [.poll h.machine] := rfl
  rw [hbefore, hpolled, List.append_assoc]
  rfl

/-- What becomes of a host by frames one at a time and by runs that come to an end. -/
inductive Life {σ : Type} [Frontend σ] (start : Host σ) : Host σ → Prop where
  | start : Life start start
  | frame {h : Host σ} (before : Life start h) : Life start h.frame.host
  | next {h : Host σ} (before : Life start h) : Life start h.next.host
  | run {h : Host σ} {limit : Nat} {out : Outcome σ Unit} (before : Life start h)
      (ends : h.runFor? #[] limit = some out) : Life start out.host

theorem afterFrames_add {σ : Type} [Frontend σ] (h : Host σ) (j k : Nat) :
    (h.afterFrames j).afterFrames k = h.afterFrames (j + k) := by
  induction k with
  | zero => rfl
  | succ k ih => exact congrArg (fun h => h.frame.host) ih

theorem Life.exists_afterFrames {σ : Type} [Frontend σ] {start h : Host σ} (hl : start.Life h) :
    ∃ n, h = start.afterFrames n := by
  induction hl with
  | start => exact ⟨0, rfl⟩
  | frame _ ih | next _ ih =>
    obtain ⟨n, rfl⟩ := ih
    exact ⟨n + 1, rfl⟩
  | @run h limit out _ ends ih =>
    obtain ⟨n, rfl⟩ := ih
    rcases runFor?_cases (start.afterFrames n) #[] limit with ⟨-, hnone⟩ | ⟨k, -, -, -, told, hsome⟩
    · rw [hnone] at ends
      cases ends
    · rw [hsome] at ends
      cases ends
      exact ⟨n + (k + 1), afterFrames_add start n (k + 1)⟩

theorem unrecorded_afterFrames (h : Host (Recorder σ)) (k : Nat) :
    (h.afterFrames k).unrecorded = h.unrecorded.afterFrames k := by
  induction k with
  | zero => rfl
  | succ k ih =>
    rw [afterFrames, afterFrames, ← ih]
    exact (unrecorded_frame _).1

/-- A frame polls first, and shows the screen last unless the poll closed the frontend or an
instruction failed. The buzzer is told on and off in turn, as the sound timer runs or not. -/
theorem frontend_protocol (m : Machine) (frontend : σ) (ipf rate : Nat) {h : Host (Recorder σ)}
    (hl : (((Host.new m ⟨frontend, []⟩).withIpf ipf).withRate rate).Life h) :
    (h.StopsEarly → h.frame.host.frontend.calls = h.frontend.calls ++ [.poll h.machine]) ∧
    (¬ h.StopsEarly → ∃ (changes : List Bool) (shown : Recorder σ), changes.length ≤ 1 ∧
      shown.calls = h.frontend.calls ++ .poll h.machine :: changes.map .sound ∧
      h.frame.host.frontend.calls = shown.calls ++ [.render h.frame.host.machine] ∧
      h.frame.result = (Frontend.render shown.frontend h.frame.host.machine).2) ∧
    (h.pollAnswer ≠ .ok true → h.frame.result = h.pollAnswer) ∧
    (h.pollAnswer = .ok true → ∀ f, (h.polled.machine.multistep h.ipf).result = .error f →
      (f.isBreakpoint = false → h.frame.result = .error f) ∧
        (f.isBreakpoint = true → ¬ h.StopsEarly)) ∧
    sounds h.frontend.calls = alternating (sounds h.frontend.calls).length ∧
    (∀ earlier shown, earlier ++ [.render shown] <+: h.frontend.calls →
      (lastSound earlier = true ↔ shown.timers.sound ≠ 0)) ∧
    (∀ limit, (h.GoesOn limit ∧ h.runFor? #[] limit = none) ∨
      ∃ k < limit, h.GoesOn k ∧ (h.afterFrames k).frame.result ≠ .ok true ∧
        ∃ told, h.runFor? #[] limit =
          some ⟨h.afterFrames (k + 1), (h.afterFrames k).frame.result.map fun _ => (), told⟩) ∧
    ∃ n, h = (((Host.new m ⟨frontend, []⟩).withIpf ipf).withRate rate).afterFrames n ∧
      h.unrecorded = (((Host.new m frontend).withIpf ipf).withRate rate).afterFrames n := by
  obtain ⟨n, hn⟩ := hl.exists_afterFrames
  have htune : h.InTune := by
    rw [hn]
    exact (inTune_new m frontend ipf rate).afterFrames n
  refine ⟨calls_frame_of_stopsEarly, calls_frame, fun hp => (frame_of_refused hp).1, ?_,
    htune.faithful.alternates, ?_, runFor?_cases h #[], n, hn, ?_⟩
  · intro hp f hf
    refine ⟨fun hb => (frame_of_fails hp ⟨hf, hb⟩).1, ?_⟩
    rintro hb (hno | ⟨g, hg⟩)
    · exact hno hp
    · have he := hf.symm.trans hg.1
      cases he
      rw [hg.2] at hb
      cases hb
  · intro earlier shown hp
    rw [htune.faithful.right earlier shown hp, Timers.isBeeping]
    exact bne_iff_ne
  · rw [hn]
    exact unrecorded_afterFrames _ n

/-- A program that sounds the buzzer for two frames. -/
theorem frontend_protocol_of_beep :
    let m := Operation.run (.boot {} (.ofSeed 0))
      [.load [0x60, 0x02, 0xf0, 0x18, 0x12, 0x04], .reset]
    let start : Host (Recorder Unattended) :=
      ((Host.new m ⟨Unattended.mk, []⟩).withIpf 2).withRate 60
    let h := start.frame.host.next.host
    start.Life h ∧ sounds h.frontend.calls = [true, false] ∧
      sounds h.frontend.calls = alternating (sounds h.frontend.calls).length ∧
      ∃ n, h.unrecorded = (((Host.new m Unattended.mk).withIpf 2).withRate 60).afterFrames n := by
  intro m start h
  have hlife : start.Life h := .next (.frame .start)
  have hs : sounds h.frontend.calls = [true, false] := by decide +kernel
  obtain ⟨-, -, -, -, halternate, -, -, n, -, hn⟩ := frontend_protocol m Unattended.mk 2 60 hlife
  exact ⟨hlife, hs, halternate, n, hn⟩

end Host

end Chip8
