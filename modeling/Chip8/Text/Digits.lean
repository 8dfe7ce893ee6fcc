/-! Numbers as text: hexadecimal, binary and decimal digits, padded on the left. -/
namespace Chip8.Text

/-- Lowercase hexadecimal, with at least `width` digits. -/
def hex (width n : Nat) : String :=
  String.ofList ((Nat.toDigits 16 n).leftpad width '0')

/-- Uppercase hexadecimal, with as many digits as needed. -/
def hexUpper (n : Nat) : String :=
  String.ofList ((Nat.toDigits 16 n).map Char.toUpper)

def binary (width n : Nat) : String :=
  String.ofList ((Nat.toDigits 2 n).leftpad width '0')

/-- Decimal, filled up on the left to at least `width` characters. -/
def decimal (fill : Char) (width n : Nat) : String :=
  String.ofList ((Nat.toDigits 10 n).leftpad width fill)

/-- Text filled up with spaces on the right to at least `width` characters. -/
def column (width : Nat) (text : String) : String :=
  String.ofList (text.toList.rightpad width ' ')

def replaceChar (a b : Char) (text : String) : String :=
  String.ofList (text.toList.map fun c => if c = a then b else c)

end Chip8.Text
