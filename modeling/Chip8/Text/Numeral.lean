/-! Reading numbers, with the reason when a text is none. -/
namespace Chip8.Text

inductive NumeralError where
  | empty | invalidDigit | tooLarge
  deriving DecidableEq

def NumeralError.message : NumeralError → String
  | .empty => "cannot parse integer from empty string"
  | .invalidDigit => "invalid digit found in string"
  | .tooLarge => "number too large to fit in target type"

def digitValue? (base : Nat) (c : Char) : Option Nat :=
  let value :=
    if '0' ≤ c ∧ c ≤ '9' then c.toNat - '0'.toNat
    else if 'a' ≤ c ∧ c ≤ 'z' then c.toNat - 'a'.toNat + 10
    else if 'A' ≤ c ∧ c ≤ 'Z' then c.toNat - 'A'.toNat + 10
    else base
  if value < base then some value else none

/-- Reads digits from the left, up to the first that is wrong or makes the number too large. -/
def readDigits (base limit : Nat) (n : Nat) : List Char → Except NumeralError Nat
  | [] => .ok n
  | c :: rest =>
    match digitValue? base c with
    | none => .error .invalidDigit
    | some d =>
      if base * n + d ≤ limit then readDigits base limit (base * n + d) rest
      else .error .tooLarge

/-- Reads a number of at most `limit`, which one plus sign may go before. -/
def readNumeral (base limit : Nat) : List Char → Except NumeralError Nat
  | [] => .error .empty
  | ['+'] => .error .invalidDigit
  | '+' :: digits => readDigits base limit 0 digits
  | digits => readDigits base limit 0 digits

/-- The text without any number of `0x` at its start. -/
def dropHexMarks : List Char → List Char
  | '0' :: 'x' :: rest => dropHexMarks rest
  | cs => cs

/-- A 16-bit number in hexadecimal, with or without `0x` before it. -/
def readHexWord (text : String) : Except NumeralError UInt16 :=
  (readNumeral 16 0xffff (dropHexMarks text.toList)).map UInt16.ofNat

def readCount (text : String) : Except NumeralError Nat :=
  readNumeral 10 0xffffffffffffffff text.toList

end Chip8.Text
