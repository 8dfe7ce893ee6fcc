import Chip8.Host.Basic
import Chip8.Machine.Report
import Chip8.Screen.Braille
import Chip8.Window.Basic

/-! The frontend that shows a machine in a window, with keys to look into the machine. -/
namespace Chip8

/-- What a key does when it goes down. -/
inductive Binding where
  | dump | picture | toggleDebug | togglePause | step | setBreak | unsetBreak | reset | quit
  | press (key : Key)
  | unbound
  deriving DecidableEq

def KeyCode.binding : KeyCode → Binding
  | .function 0 | .comma => .dump
  | .function 1 | .period => .picture
  | .function 3 | .slash => .toggleDebug
  | .function 4 | .backslash => .togglePause
  | .function 5 | .enter => .step
  | .function 6 => .setBreak
  | .function 7 => .unsetBreak
  | .function 8 | .delete => .reset
  | .escape => .quit
  | k => k.padKey?.elim .unbound .press

structure Viewer where
  window : Window
  /-- The keys that were down at the last poll. -/
  keyboard : List KeyCode := []
  buffer : FrameBuffer := .new {}
  beeping : Bool := false

namespace Viewer
open Chip8.Text

def settings : Window.Settings where
  name := "Peep"
  width := 128
  height := 64
  title := true
  resize := false
  bare := true
  borderless := false
  topmost := false
  scale := "X16"
  scaleMode := "AspectRatioStretch"

abbrev Told := Machine × Array Notice

def moveKey (t : Told) (key : Key) (down : Bool) : Told :=
  ({ t.1 with keypad := (t.1.keypad.set key down).2 }, t.2)

def say (t : Told) (line : String) : Told := (t.1, t.2.push (.said line))

/-- Executes one instruction, and says why if that fails. -/
def step (t : Told) : Told :=
  let t := say t "Step"
  let s := t.1.singlestep.after t.2
  match s.result with
  | .ok _ => (s.machine, s.notices)
  | .error f => say (s.machine, s.notices) f.message

def pcText (t : Told) : String := hex 3 t.1.pc.toNat

/-- What a binding does to a machine. Quitting is for `press` to see to. -/
def act (t : Told) : Binding → Told
  | .dump => (t.1, t.2.push (.printed t.1.dump))
  | .picture => (t.1, t.2.push (.printed (t.1.screen.picture Braille.canvas)))
  | .toggleDebug =>
    let m := { t.1 with flags := t.1.flags.toggleDebug }
    say (m, t.2) (if m.flags.debug then "Debug enabled." else "Debug disabled.")
  | .togglePause =>
    let m := { t.1 with flags := t.1.flags.togglePause }
    say (m, t.2) (if m.flags.pause then "Paused." else "Unpaused.")
  | .step => step t
  | .setBreak =>
    let t := say t ("Set breakpoint " ++ pcText t ++ ".")
    (t.1.setBreak (addressWord t.1.pc), t.2)
  | .unsetBreak =>
    let t := say t ("Unset breakpoint " ++ pcText t ++ ".")
    (t.1.unsetBreak (addressWord t.1.pc), t.2)
  | .reset =>
    let t := say t "Reset"
    (t.1.restarted, t.2.push .restarted)
  | .press key => moveKey t key true
  | .quit => t
  | .unbound => t

/-- Keys that went up. Only those of the keypad matter. -/
def release (t : Told) (codes : List KeyCode) : Told :=
  codes.foldl (fun t code => code.padKey?.elim t fun key => moveKey t key false) t

/-- Keys that went down, in turn. The answer is whether none of them was to quit. -/
def press (t : Told) : List KeyCode → Bool × Told
  | [] => (true, t)
  | code :: rest => if code.binding = .quit then (false, t) else press (act t code.binding) rest

/-- Compares the keys with those of the last poll. -/
def poll (v : Viewer) (m : Machine) : Viewer × Step Bool :=
  if v.window.isOpenAtPoll then
    let v := { v with window := v.window.advance }
    let keys := v.window.keys
    let t := release (m, #[]) (v.keyboard.filter fun k => !keys.contains k)
    let r := press t (keys.filter fun k => !v.keyboard.contains k)
    ({ v with keyboard := if r.1 then keys else v.keyboard }, ⟨r.2.1, .ok r.1, r.2.2⟩)
  else
    (v, .ok m false)

def render (v : Viewer) (m : Machine) : Viewer × Except Fault Bool :=
  if v.window.isOpenAtRender then
    let buffer := v.buffer.draw m.screen
    let titled := v.window.request (.title ⟨m.flags.pause, v.beeping⟩)
    if v.window.current.refuses then
      ({ v with window := titled, buffer := buffer }, .error (.window .update))
    else
      let shown := titled.request (.picture Screen.width Screen.height buffer.pixels)
      ({ v with window := shown, buffer := buffer }, .ok true)
  else
    (v, .ok false)

def sound (on : Bool) (v : Viewer) : Viewer := { v with beeping := on }

instance : Frontend Viewer := ⟨poll, render, sound⟩

end Viewer

end Chip8
