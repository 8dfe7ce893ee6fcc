import Chip8.Word

/-! The keys of a keyboard, and which of them stand for keys of the keypad. -/
namespace Chip8

/-- The characters that stand for the keys of the keypad, in the order of these. They are the left
hand side of a keyboard. -/
def keyChars : Vector Char 16 :=
  #v['x', '1', '2', '3', 'q', 'w', 'e', 'a', 's', 'd', 'z', 'c', '4', 'r', 'f', 'v']

def keyFor? (c : Char) : Option Key :=
  (List.finRange 16).find? fun key => keyChars.get key == c.toLower

inductive KeyCode where
  | digit (n : Fin 10)
  | letter (n : Fin 26)
  /-- The first function key has number zero. -/
  | function (n : Fin 12)
  | down | left | right | up
  | backslash | comma | period | slash
  | backspace | delete | enter | escape | space | tab | leftShift
  | numPad (n : Fin 10)
  | numPadEnter
  /-- Any other key, by a number of its own. -/
  | other (n : Nat)
  deriving DecidableEq

namespace KeyCode

/-- Every key that has a name of its own, in the order in which a keyboard tells them. -/
def all : List KeyCode :=
  (List.finRange 10).map digit ++ (List.finRange 26).map letter
    ++ (List.finRange 12).map function
    ++ [down, left, right, up, backslash, comma, period, slash,
      backspace, delete, enter, escape, space, tab, leftShift]
    ++ (List.finRange 10).map numPad ++ [numPadEnter]

def name : KeyCode → String
  | .digit n => "Key" ++ n.val.repr
  | .letter n => String.singleton (Char.ofNat ('A'.toNat + n.val))
  | .function n => "F" ++ (n.val + 1).repr
  | .down => "Down"
  | .left => "Left"
  | .right => "Right"
  | .up => "Up"
  | .backslash => "Backslash"
  | .comma => "Comma"
  | .period => "Period"
  | .slash => "Slash"
  | .backspace => "Backspace"
  | .delete => "Delete"
  | .enter => "Enter"
  | .escape => "Escape"
  | .space => "Space"
  | .tab => "Tab"
  | .leftShift => "LeftShift"
  | .numPad n => "NumPad" ++ n.val.repr
  | .numPadEnter => "NumPadEnter"
  | .other _ => "Unknown"

def ofName? (text : String) : Option KeyCode := all.find? fun k => k.name == text

def char? : KeyCode → Option Char
  | .digit n => some (Char.ofNat ('0'.toNat + n.val))
  | .letter n => some (Char.ofNat ('a'.toNat + n.val))
  | _ => none

def padKey? (k : KeyCode) : Option Key := k.char?.bind keyFor?

end KeyCode

end Chip8
