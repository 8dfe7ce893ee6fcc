import Chip8.Host.Basic
import Chip8.Keyboard
import Chip8.Window.FrameBuffer

/-! A window as seen by a program: keys come in frame by frame, titles and pictures go out. -/
namespace Chip8

namespace Window

structure Frame where
  keys : List KeyCode := []
  closing : Option Closing := none
  /-- The window refuses the picture. -/
  refuses : Bool := false
  deriving DecidableEq

structure Settings where
  name : String
  width : Nat
  height : Nat
  title : Bool
  resize : Bool
  /-- Without controls of any kind. -/
  bare : Bool
  borderless : Bool
  topmost : Bool
  scale : String
  scaleMode : String
  deriving DecidableEq

structure Title where
  paused : Bool
  beeping : Bool
  deriving DecidableEq

def Title.text (t : Title) (rate : String) : String :=
  "Peep " ++ (if t.paused then "⏸" else "▶ " ++ rate) ++ (if t.beeping then " ♪" else "")

/-- What a program asks of a window. -/
inductive Request where
  | create (settings : Settings)
  | title (t : Title)
  | picture (width height : Nat) (pixels : Vector UInt32 2048)
  deriving DecidableEq

end Window

structure Window where
  /-- The frames to come. -/
  upcoming : List Window.Frame
  /-- The frame whose keys were asked for last. -/
  current : Window.Frame := {}
  requests : Array Window.Request := #[]
  deriving DecidableEq

namespace Window

def request (w : Window) (r : Request) : Window := { w with requests := w.requests.push r }

/-- Whether the next frame finds the window open. -/
def isOpenAtPoll (w : Window) : Bool :=
  match w.upcoming with
  | [] => false
  | f :: _ => decide (f.closing ≠ some .atPoll)

/-- Whether the window is still open when the current frame is shown. -/
def isOpenAtRender (w : Window) : Bool := decide (w.current.closing ≠ some .atRender)

def advance (w : Window) : Window :=
  match w.upcoming with
  | [] => w
  | f :: rest => { w with upcoming := rest, current := f }

def keys (w : Window) : List KeyCode := w.current.keys

end Window

end Chip8
