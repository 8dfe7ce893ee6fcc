import Chip8.Dialect

/-! The switches that tell a machine how to run. -/
namespace Chip8
open Chip8.Text

structure Flags where
  /-- Every instruction is shown before it is executed. -/
  debug : Bool := false
  /-- Nothing is executed. -/
  pause : Bool := false
  /-- Words that are no instruction are passed over. -/
  lenient : Bool := false
  dialect : Dialect := {}
  deriving DecidableEq, Ord

inductive Flag where
  | debug | pause | lenient | shift | dmaInc | vfReset | screenWrap
  deriving DecidableEq

namespace Flag

def all : List Flag := [.debug, .pause, .lenient, .shift, .dmaInc, .vfReset, .screenWrap]

def name : Flag → String
  | .debug => "debug"
  | .pause => "pause"
  | .lenient => "lenient"
  | .shift => "shift"
  | .dmaInc => "dma_inc"
  | .vfReset => "vf_reset"
  | .screenWrap => "screen_wrap"

def ofName? (text : String) : Option Flag := all.find? fun f => f.name == text

end Flag

namespace Flags

def isOn (s : Flags) : Flag → Bool
  | .debug => s.debug
  | .pause => s.pause
  | .lenient => s.lenient
  | .shift => s.dialect.shift
  | .dmaInc => s.dialect.dmaInc
  | .vfReset => s.dialect.vfReset
  | .screenWrap => s.dialect.screenWrap

def assign (s : Flags) (f : Flag) (on : Bool) : Flags :=
  match f with
  | .debug => { s with debug := on }
  | .pause => { s with pause := on }
  | .lenient => { s with lenient := on }
  | .shift => { s with dialect.shift := on }
  | .dmaInc => { s with dialect.dmaInc := on }
  | .vfReset => { s with dialect.vfReset := on }
  | .screenWrap => { s with dialect.screenWrap := on }

def toggleDebug (s : Flags) : Flags := { s with debug := !s.debug }

def togglePause (s : Flags) : Flags := { s with pause := !s.pause }

def ofMode (m : Mode) : Flags := { dialect := .ofMode m }

def toList (s : Flags) : List Flag := Flag.all.filter s.isOn

def inspect (s : Flags) : String :=
  record "Flags" [
    ("debug", bool s.debug), ("pause", bool s.pause), ("lenient", bool s.lenient),
    ("quirks", s.dialect.inspect)]

end Flags

end Chip8
