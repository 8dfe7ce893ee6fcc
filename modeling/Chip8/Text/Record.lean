/-! The text of a structured value: records with named fields, lists, options. -/
namespace Chip8.Text

/-- A record with its fields, and two dots at the end where more is left out. -/
def recordWith (rest : List String) (name : String) (fields : List (String × String)) : String :=
  match fields.map (fun f => f.1 ++ ": " ++ f.2) ++ rest with
  | [] => name
  | parts => name ++ " \x7b " ++ ", ".intercalate parts ++ " \x7d"

def record : String → List (String × String) → String := recordWith []

def openRecord : String → List (String × String) → String := recordWith [".."]

def list (items : List String) : String :=
  "[" ++ ", ".intercalate items ++ "]"

def option : Option String → String
  | none => "None"
  | some text => "Some(" ++ text ++ ")"

def bool : Bool → String
  | true => "true"
  | false => "false"

def numbers (ns : List Nat) : String := list (ns.map Nat.repr)

end Chip8.Text
