import Chip8.Proofs.Host.Frame
import Chip8.Proofs.Keypad
import Chip8.Proofs.Machine.Breakpoints
import Chip8.Proofs.Machine.Operation
import Chip8.Proofs.Window.Binding
import Mathlib.Data.List.TakeWhile

/-! The keypad mirrors the keyboard. A key of the keypad is down as long as its key on the keyboard
is, unless a reset lets it go in between. -/
namespace Chip8

open KeyCode

namespace Viewer

variable {w : KeyCode} {key : Key}

theorem held_step (t : Told) : (step t).1.keypad.held = t.1.keypad.held := by
  have hs : t.1.singlestep.machine.keypad.held = t.1.keypad.held :=
    (Machine.ticksTo_tick { t.1 with flags.pause := false }).held
  unfold step
  dsimp only
  split
  · exact hs
  · exact hs

theorem isHeld_moveKey (t : Told) (moved key : Key) (down : Bool) :
    (moveKey t moved down).1.keypad.isHeld key =
      if moved = key then down else t.1.keypad.isHeld key :=
  Keypad.isHeld_set t.1.keypad moved key down

/-- A binding moves a key only if it presses that key or resets. -/
theorem isHeld_act (t : Told) (b : Binding) (key : Key) :
    (act t b).1.keypad.isHeld key = true ↔
      b = .press key ∨ (t.1.keypad.isHeld key = true ∧ b ≠ .reset) := by
  cases b with
  | press moved =>
    rw [act, isHeld_moveKey]
    by_cases hm : moved = key
    · simp [hm]
    · simp [hm]
  | reset =>
    have hup : (act t .reset).1.keypad.isHeld key = false := Keypad.isHeld_released key
    simp [hup]
  | step =>
    have hheld := held_step t
    simp [act, Keypad.isHeld, hheld]
  | setBreak =>
    have hkeypad := congrArg Machine.keypad (Machine.setBreak_eq t.1 (addressWord t.1.pc))
    simp [act, say, hkeypad]
  | _ => simp [act, say, Machine.unsetBreak]

/-- What the keys that went down do, one after the other. -/
def handle (t : Told) (codes : List KeyCode) : Told :=
  codes.foldl (fun t code => act t code.binding) t

theorem press_eq (t : Told) (codes : List KeyCode) :
    press t codes = (codes.all goesOn, handle t (codes.takeWhile goesOn)) := by
  induction codes generalizing t with
  | nil => rfl
  | cons code rest ih =>
    unfold press
    by_cases hq : code.binding = .quit
    · simp [hq, goesOn, handle]
    · rw [if_neg hq, ih]
      simp [hq, goesOn, handle]

theorem isHeld_act_binding (hw : w.padKey? = some key) (t : Told) (code : KeyCode) :
    (act t code.binding).1.keypad.isHeld key = true ↔
      code = w ∨ (t.1.keypad.isHeld key = true ∧ code ∉ resets) := by
  have hcode : code.padKey? = some key ↔ code = w := ⟨padKey?_inj hw, fun h => h ▸ hw⟩
  rw [isHeld_act, binding_eq_press_iff, hcode, Ne, binding_eq_reset_iff]

/-- The keys that went down decide what is held, unless none of them was `w` or resets. -/
theorem isHeld_handle (hw : w.padKey? = some key) (t : Told) (codes : List KeyCode) :
    (handle t codes).1.keypad.isHeld key = true ↔
      PressedSinceReset codes w ∨
        (t.1.keypad.isHeld key = true ∧ ∀ code ∈ codes, code ∉ resets) := by
  induction codes generalizing t with
  | nil => simp [handle, not_pressedSinceReset_nil]
  | cons code rest ih =>
    have happend := pressedSinceReset_append [code] rest w
    rw [List.singleton_append, pressedSinceReset_singleton] at happend
    have hrest := ih (act t code.binding)
    rw [isHeld_act_binding hw, or_and_right, and_assoc, ← or_assoc] at hrest
    rw [happend, List.forall_mem_cons]
    exact hrest

theorem isHeld_moveKey_padKey? (hw : w.padKey? = some key) (t : Told) (code : KeyCode) :
    (code.padKey?.elim t fun moved => moveKey t moved false).1.keypad.isHeld key = true ↔
      t.1.keypad.isHeld key = true ∧ w ≠ code := by
  by_cases he : w = code
  · subst he
    rw [hw, Option.elim_some, isHeld_moveKey]
    simp
  · cases hcode : code.padKey? with
    | none => simp [he]
    | some moved =>
      have hne : moved ≠ key := by
        rintro rfl
        exact he (padKey?_inj hcode hw)
      rw [Option.elim_some, isHeld_moveKey]
      simp [hne, he]

theorem isHeld_release (hw : w.padKey? = some key) (t : Told) (codes : List KeyCode) :
    (release t codes).1.keypad.isHeld key = true ↔
      t.1.keypad.isHeld key = true ∧ w ∉ codes := by
  induction codes generalizing t with
  | nil => simp [release]
  | cons code rest ih =>
    have hrest := ih (code.padKey?.elim t fun moved => moveKey t moved false)
    rw [isHeld_moveKey_padKey? hw, and_assoc] at hrest
    rw [List.mem_cons, not_or]
    exact hrest

variable {v : Viewer} {m : Machine}

/-- A poll of an open window. The keys that went up come first, then those that went down. -/
theorem poll_of_isOpen (ho : v.window.isOpenAtPoll = true) (m : Machine) :
    ∃ f rest, v.window.upcoming = f :: rest ∧ (v.poll m).1.window.upcoming = rest ∧
      (v.poll m).1.keyboard =
        (if (outside v.keyboard f.keys).all goesOn then f.keys else v.keyboard) ∧
      (v.poll m).2.result = .ok ((outside v.keyboard f.keys).all goesOn) ∧
      (v.poll m).2.machine =
        (handle (release (m, #[]) (outside f.keys v.keyboard))
          ((outside v.keyboard f.keys).takeWhile goesOn)).1 := by
  cases hu : v.window.upcoming with
  | nil => simp [Window.isOpenAtPoll, hu] at ho
  | cons f rest =>
    have ha : v.window.advance = { v.window with upcoming := rest, current := f } := by
      simp [Window.advance, hu]
    have hp : v.poll m = _ := if_pos ho
    rw [hp, ha]
    simp only [Window.keys, press_eq]
    exact ⟨f, rest, rfl, rfl, rfl, rfl, rfl⟩

theorem exists_result_poll (v : Viewer) (m : Machine) :
    ∃ isOpen, (v.poll m).2.result = .ok isOpen := by
  unfold poll
  split
  · exact ⟨_, rfl⟩
  · exact ⟨_, rfl⟩

theorem isOpen_of_poll (hr : (v.poll m).2.result = .ok true) : v.window.isOpenAtPoll = true := by
  by_contra ho
  rw [poll, if_neg ho] at hr
  cases hr

theorem render_keeps (v : Viewer) (m : Machine) :
    (v.render m).1.keyboard = v.keyboard ∧
      (v.render m).1.window.upcoming = v.window.upcoming := by
  unfold render
  dsimp only
  split
  · split
    · exact ⟨rfl, rfl⟩
    · exact ⟨rfl, rfl⟩
  · exact ⟨rfl, rfl⟩

end Viewer

namespace Window

def keysAt (window : Window) (j : Nat) : List KeyCode := window.upcoming[j]?.elim [] Frame.keys

/-- The keys that were down one poll earlier. Before the first poll there are none. -/
def keysBefore (window : Window) : Nat → List KeyCode
  | 0 => []
  | j + 1 => window.keysAt j

def wentDown (window : Window) (j : Nat) : List KeyCode :=
  outside (window.keysBefore j) (window.keysAt j)

def wentUp (window : Window) (j : Nat) : List KeyCode :=
  outside (window.keysAt j) (window.keysBefore j)

/-- The keys that went down over the first `j` polls, in the order in which they are handled. -/
def handled (window : Window) (j : Nat) : List KeyCode := (List.range j).flatMap window.wentDown

theorem handled_succ (window : Window) (j : Nat) :
    window.handled (j + 1) = window.handled j ++ window.wentDown j := by
  simp [handled, List.range_succ]

end Window

namespace Host

variable {h : Host Viewer} {start : Window} {j : Nat}

/-- A host whose keypad mirrors the keyboard after `j` polls of a window. -/
structure Mirrors (start : Window) (j : Nat) (h : Host Viewer) : Prop where
  upcoming : h.frontend.window.upcoming = start.upcoming.drop j
  keyboard : h.frontend.keyboard = start.keysBefore j
  isHeld : ∀ {w : KeyCode} {key : Key}, w.padKey? = some key →
    (h.machine.keypad.isHeld key = true ↔
      w ∈ start.keysBefore j ∧ PressedSinceReset (start.handled j) w)

theorem mirrors_start (hk : h.frontend.keyboard = [])
    (hup : ∀ key, h.machine.keypad.isHeld key = false) : h.Mirrors h.frontend.window 0 where
  upcoming := rfl
  keyboard := hk
  isHeld _ := by simp [hup, Window.keysBefore]

namespace Mirrors

/-- A poll of an open window in terms of the window as it was at the start. -/
theorem poll (hm : h.Mirrors start j) (ho : h.frontend.window.isOpenAtPoll = true) :
    h.polled.frontend.window.upcoming = start.upcoming.drop (j + 1) ∧
      h.polled.frontend.keyboard =
        (if (start.wentDown j).all goesOn then start.keysAt j else start.keysBefore j) ∧
      h.pollAnswer = .ok ((start.wentDown j).all goesOn) ∧
      h.polled.machine =
        (Viewer.handle (Viewer.release (h.machine, #[]) (start.wentUp j))
          ((start.wentDown j).takeWhile goesOn)).1 := by
  obtain ⟨f, rest, hu, hupcoming, hkeyboard, hanswer, hmachine⟩ :=
    Viewer.poll_of_isOpen ho h.machine
  have hdrop : start.upcoming.drop j = f :: rest := hm.upcoming.symm.trans hu
  have hkeys : start.keysAt j = f.keys := by
    have hat := congrArg List.head? hdrop
    rw [List.head?_drop] at hat
    simp [Window.keysAt, hat]
  have hrest : start.upcoming.drop (j + 1) = rest := by
    rw [← List.tail_drop, hdrop, List.tail_cons]
  rw [hm.keyboard] at hkeyboard hanswer hmachine
  simp only [Window.wentDown, Window.wentUp, hkeys, hrest]
  exact ⟨hupcoming, hkeyboard, hanswer, hmachine⟩

theorem isHeld_polled (hm : h.Mirrors start j) (ho : h.frontend.window.isOpenAtPoll = true)
    {w : KeyCode} {key : Key} (hw : w.padKey? = some key) :
    h.polled.machine.keypad.isHeld key = true ↔
      PressedSinceReset ((start.wentDown j).takeWhile goesOn) w ∨
        (w ∈ start.keysBefore j ∧ w ∈ start.keysAt j ∧ PressedSinceReset (start.handled j) w ∧
          ∀ code ∈ (start.wentDown j).takeWhile goesOn, code ∉ resets) := by
  rw [(hm.poll ho).2.2.2, Viewer.isHeld_handle hw, Viewer.isHeld_release hw, hm.isHeld hw,
    Window.wentUp, mem_outside]
  refine or_congr_right ⟨?_, ?_⟩
  · rintro ⟨⟨⟨hbefore, hpress⟩, hup⟩, hr⟩
    exact ⟨hbefore, not_not.mp fun hkeys => hup ⟨hbefore, hkeys⟩, hpress, hr⟩
  · rintro ⟨hbefore, hkeys, hpress, hr⟩
    exact ⟨⟨⟨hbefore, hpress⟩, fun hup => hup.2 hkeys⟩, hr⟩

/-- A key that is held after a poll is down on the keyboard, also if the poll ends by quitting. -/
theorem mem_keysAt (hm : h.Mirrors start j) (ho : h.frontend.window.isOpenAtPoll = true)
    {w : KeyCode} {key : Key} (hw : w.padKey? = some key)
    (hheld : h.polled.machine.keypad.isHeld key = true) : w ∈ start.keysAt j := by
  rcases (hm.isHeld_polled ho hw).mp hheld with hp | ⟨-, hkeys, -⟩
  · have hdown : w ∈ start.wentDown j := (List.takeWhile_sublist _).subset hp.mem
    exact (mem_outside.mp hdown).1
  · exact hkeys

theorem polled (hm : h.Mirrors start j) (hp : h.pollAnswer = .ok true) :
    h.polled.Mirrors start (j + 1) := by
  have ho : h.frontend.window.isOpenAtPoll = true := Viewer.isOpen_of_poll hp
  obtain ⟨hupcoming, hkeyboard, hanswer, -⟩ := hm.poll ho
  have hall : ((start.wentDown j).all goesOn) = true :=
    Except.ok.inj (hanswer.symm.trans hp)
  have hwhole : (start.wentDown j).takeWhile goesOn = start.wentDown j :=
    List.takeWhile_eq_self_iff.mpr (List.all_eq_true.mp hall)
  rw [if_pos hall] at hkeyboard
  refine ⟨hupcoming, hkeyboard, fun {w key} hw => ?_⟩
  rw [hm.isHeld_polled ho hw, hwhole, Window.handled_succ, pressedSinceReset_append]
  constructor
  · rintro (hpress | ⟨-, hkeys, hpress, hr⟩)
    · exact ⟨(mem_outside.mp hpress.mem).1, Or.inl hpress⟩
    · exact ⟨hkeys, Or.inr ⟨hpress, hr⟩⟩
  · rintro ⟨hkeys, hpress | ⟨hpress, hr⟩⟩
    · exact Or.inl hpress
    · -- A key that was let go and is down again has gone down at this very poll.
      by_cases hbefore : w ∈ start.keysBefore j
      · exact Or.inr ⟨hbefore, hkeys, hpress, hr⟩
      · have hdown : w ∈ start.wentDown j := mem_outside.mpr ⟨hkeys, hbefore⟩
        exact Or.inl (pressedSinceReset_of_mem hdown hr)

end Mirrors

theorem updateSound_keeps (h : Host Viewer) :
    h.updateSound.frontend.keyboard = h.frontend.keyboard ∧
      h.updateSound.frontend.window.upcoming = h.frontend.window.upcoming := by
  rw [updateSound_eq]
  dsimp only
  split
  · exact ⟨rfl, rfl⟩
  · exact ⟨rfl, rfl⟩

/-- After its poll a frame moves no key, and leaves the rest to the next poll. -/
theorem frame_after_poll (h : Host Viewer) :
    h.frame.host.machine.keypad.held = h.polled.machine.keypad.held ∧
      h.frame.host.frontend.keyboard = h.polled.frontend.keyboard ∧
      h.frame.host.frontend.window.upcoming = h.polled.frontend.window.upcoming := by
  have hplayed : h.polled.played.machine.keypad.held = h.polled.machine.keypad.held :=
    Machine.held_multistep h.polled.machine h.polled.ipf
  have hf := framesTo_frame h
  generalize h.frame = out at hf
  cases hf with
  | refused => exact ⟨rfl, rfl, rfl⟩
  | failed => exact ⟨hplayed, rfl, rfl⟩
  | @shown notices =>
    have htimers : h.polled.played.tickTimers.frontend = h.polled.frontend := by
      rw [tickTimers_eq]
      rfl
    have hsound := updateSound_keeps h.polled.played.tickTimers
    rw [htimers] at hsound
    obtain ⟨hkeyboard, hupcoming⟩ := Viewer.render_keeps
      h.polled.played.tickTimers.updateSound.frontend h.polled.played.tickTimers.updateSound.machine
    refine ⟨?_, hkeyboard.trans hsound.1, hupcoming.trans hsound.2⟩
    rw [machine_present]
    split
    · exact hplayed
    · exact hplayed

theorem Mirrors.frame (hm : h.Mirrors start j) (hp : h.pollAnswer = .ok true) :
    h.frame.host.Mirrors start (j + 1) := by
  obtain ⟨hheld, hkeyboard, hupcoming⟩ := frame_after_poll h
  have hpolled := hm.polled hp
  refine ⟨hupcoming.trans hpolled.upcoming, hkeyboard.trans hpolled.keyboard, fun hw => ?_⟩
  rw [Keypad.isHeld, hheld]
  exact hpolled.isHeld hw

def StaysOpen (h : Host Viewer) (j : Nat) : Prop :=
  ∀ i < j, (h.afterFrames i).pollAnswer = .ok true

theorem mirrors_afterFrames (hm : h.Mirrors start 0) (hopen : h.StaysOpen j) :
    (h.afterFrames j).Mirrors start j := by
  induction j with
  | zero => exact hm
  | succ j ih =>
    have hbefore := ih fun i hi => hopen i (by omega)
    exact hbefore.frame (hopen j (by omega))

/-- After every poll that leaves the window open, a key of the keypad is held just if its key is
down and no reset came after that key was last handled. Until the next poll nothing moves it. -/
theorem keypad_mirrors_keyboard {h : Host Viewer} (hfresh : h.frontend.keyboard = [])
    (hup : ∀ n, h.machine.keypad.isPressed n = false) {j : Nat} (hopen : h.StaysOpen j) :
    (∃ isOpen, (h.afterFrames j).pollAnswer = .ok isOpen) ∧
    ∀ (w : KeyCode) (key : Key), w.padKey? = some key →
      (∀ (m : Machine) (down : Bool), ∃ changed,
        m.setKey key.val down = .ok (Viewer.moveKey (m, #[]) key down).1 changed) ∧
      ((h.afterFrames j).pollAnswer = .ok true →
        ((h.afterFrames j).polled.machine.keypad.isPressed key.val = true ↔
          w ∈ h.frontend.window.keysAt j ∧
            PressedSinceReset (h.frontend.window.handled (j + 1)) w)) ∧
      ((h.afterFrames j).frontend.window.isOpenAtPoll = true →
        (h.afterFrames j).polled.machine.keypad.isPressed key.val = true →
          w ∈ h.frontend.window.keysAt j) ∧
      (h.afterFrames (j + 1)).machine.keypad.isPressed key.val =
        (h.afterFrames j).polled.machine.keypad.isPressed key.val := by
  have hreleased : ∀ key, h.machine.keypad.isHeld key = false := by
    intro key
    rw [← Keypad.isPressed_val]
    exact hup key.val
  have hm := mirrors_afterFrames (mirrors_start hfresh hreleased) hopen
  refine ⟨Viewer.exists_result_poll _ _, fun w key hw => ?_⟩
  rw [Keypad.isPressed_val, Keypad.isPressed_val]
  refine ⟨fun m down => ⟨_, Machine.setKey_of_lt key.isLt down⟩, fun hp => ?_, fun ho => ?_, ?_⟩
  · exact (hm.polled hp).isHeld hw
  · exact hm.mem_keysAt ho hw
  · have hheld := (frame_after_poll (h.afterFrames j)).1
    rw [afterFrames, Keypad.isHeld, hheld]
    rfl

/-- A reset lets go of a key that stays down. -/
theorem keypad_mirrors_keyboard_through_reset :
    let m := Operation.run (.boot {} (.ofSeed 0)) [.load [0x12, 0x00], .reset]
    let q : KeyCode := .letter ⟨16, by decide⟩
    let window : Window := { upcoming := [{ keys := [q] }, { keys := [q, .delete] }] }
    let h : Host Viewer := (Host.new m { window := window }).withIpf 1
    h.StaysOpen 1 ∧ (h.afterFrames 1).pollAnswer = .ok true ∧
      (h.afterFrames 1).machine.keypad.isPressed 4 = true ∧
      (h.afterFrames 1).polled.machine.keypad.isPressed 4 = false ∧
      q ∈ window.keysAt 1 ∧ ¬ PressedSinceReset (window.handled 2) q := by
  intro m q window h
  have hfirst : h.pollAnswer = .ok true := by decide +kernel
  have hsecond : (h.afterFrames 1).pollAnswer = .ok true := by decide +kernel
  have hheld : (h.afterFrames 1).machine.keypad.isPressed 4 = true := by decide +kernel
  have hgone : (h.afterFrames 1).polled.machine.keypad.isPressed 4 = false := by decide +kernel
  have hq : q ∈ window.keysAt 1 := by decide
  have hup : ∀ n, h.machine.keypad.isPressed n = false := Keypad.isPressed_released
  have hopen : h.StaysOpen 1 := by
    intro i hi
    obtain rfl : i = 0 := by omega
    exact hfirst
  obtain ⟨-, hmirror⟩ := keypad_mirrors_keyboard rfl hup hopen
  obtain ⟨-, hiff, -⟩ := hmirror q ⟨4, by decide⟩ (by decide +kernel)
  refine ⟨hopen, hsecond, hheld, hgone, hq, fun hp => ?_⟩
  have hno := (hiff hsecond).mpr ⟨hq, hp⟩
  rw [hgone] at hno
  cases hno

end Host

end Chip8
