import Chip8.Machine.Operation
import Chip8.Machine.Report
import Chip8.Screen.Braille

/-! A monitor drives a machine by commands and answers each of them. -/
namespace Chip8

/-- A machine at work, one put aside, and the files at hand. -/
structure Monitor where
  machine : Machine
  saved : Machine
  disk : Disk

namespace Monitor

inductive Command where
  | operate (op : Operation)
  /-- Ticks `n` times, whatever the ticks come to. -/
  | ticks (n : Nat)
  | tickTimers (n : Nat)
  | isPressed (key : Nat)
  /-- Writes the file if its contents are given, then loads it. -/
  | loadFile (path : String) (contents : Option (List UInt8))
  /-- The same with a machine that is switched on for it, under the flags of the present one. -/
  | bootFile (path : String) (contents : Option (List UInt8))
  | toggleDebug
  | togglePause
  | assign (flag : Flag) (on : Bool)
  | setMode (text : String)
  | dump
  | picture
  | inspect
  | screenText
  | bytes (address count : Nat)
  | word (address : Nat)
  | save
  | restore
  | compare

inductive Reply where
  | done
  | truth (b : Bool)
  | number (n : Nat)
  | text (s : String)
  | bytes (bs : List UInt8)
  /-- For each tick, where it led and what went wrong. -/
  | trail (ticks : List (Address × Option Fault))

structure Response where
  monitor : Monitor
  result : Except Fault Reply
  notices : Array Notice := #[]

def Reply.ofAnswer : Operation.Answer → Reply
  | .done => .done
  | .changed b => .truth b

def settle {α : Type} (t : Monitor) (f : α → Reply) (s : Step α) : Response :=
  ⟨{ t with machine := s.machine }, s.result.map f, s.notices⟩

def fault? : Except Fault Unit → Option Fault
  | .ok _ => none
  | .error f => some f

/-- Ticks one after the other, gathering where they led. -/
def tickTrail (m : Machine) (notices : Array Notice) :
    Nat → Machine × List (Address × Option Fault) × Array Notice
  | 0 => (m, [], notices)
  | n + 1 =>
    let s := m.tick
    let rest := tickTrail s.machine (notices ++ s.notices) n
    (rest.1, (s.machine.pc, fault? s.result) :: rest.2.1, rest.2.2)

def timersBy (m : Machine) : Nat → Machine
  | 0 => m
  | n + 1 => timersBy m.tickTimers n

def withFile (t : Monitor) (path : String) (contents : Option (List UInt8)) : Monitor :=
  match contents with
  | some bytes => { t with disk := t.disk.write path bytes }
  | none => t

def tell (t : Monitor) (r : Reply) : Response := ⟨t, .ok r, #[]⟩

def print (t : Monitor) (text : String) : Response := ⟨t, .ok .done, #[.printed text]⟩

def withFlags (t : Monitor) (flags : Flags) : Response :=
  ⟨{ t with machine.flags := flags }, .ok .done, #[]⟩

def bootFrom (t : Monitor) (path : String) : Response :=
  let s := (Machine.boot t.machine.flags (.ofSeed 0)).loadFile t.disk path
  match s.result with
  | .ok _ => ⟨{ t with machine := s.machine }, .ok .done, s.notices⟩
  | .error f => ⟨t, .error f, s.notices⟩

def run (t : Monitor) : Command → Response
  | .operate op => t.settle .ofAnswer (op.apply t.machine)
  | .ticks n =>
    let r := tickTrail t.machine #[] n
    ⟨{ t with machine := r.1 }, .ok (.trail r.2.1), r.2.2⟩
  | .tickTimers n =>
    let m := timersBy t.machine n
    ⟨{ t with machine := m }, .ok (.truth m.timers.isBeeping), #[]⟩
  | .isPressed key => t.tell (.truth (t.machine.keypad.isPressed key))
  | .loadFile path contents =>
    let t := t.withFile path contents
    t.settle (fun _ => .done) (t.machine.loadFile t.disk path)
  | .bootFile path contents => (t.withFile path contents).bootFrom path
  | .toggleDebug => t.withFlags t.machine.flags.toggleDebug
  | .togglePause => t.withFlags t.machine.flags.togglePause
  | .assign flag on => t.withFlags (t.machine.flags.assign flag on)
  | .setMode text =>
    match Mode.ofName text with
    | .ok mode => t.withFlags (.ofMode mode)
    | .error f => ⟨t, .error f, #[]⟩
  | .dump => t.print t.machine.dump
  | .picture => t.print (t.machine.screen.picture Braille.canvas)
  | .inspect => t.tell (.text t.machine.inspect)
  | .screenText => t.tell (.text t.machine.screen.text)
  | .bytes address count => t.tell (.bytes (t.machine.memory.readBytes address count))
  | .word address => t.tell (.number (t.machine.memory.word address).toNat)
  | .save => ⟨{ t with saved := t.machine }, .ok .done, #[]⟩
  | .restore => ⟨{ t with machine := t.saved }, .ok .done, #[]⟩
  | .compare => t.tell (.truth (decide (t.machine.Agrees t.saved)))

def runAll (t : Monitor) (notices : Array Notice) :
    List Command → Monitor × Except Fault Unit × Array Notice
  | [] => (t, .ok (), notices)
  | c :: rest =>
    let r := t.run c
    match r.result with
    | .ok _ => r.monitor.runAll (notices ++ r.notices) rest
    | .error f => (r.monitor, .error f, notices ++ r.notices)

end Monitor

end Chip8
