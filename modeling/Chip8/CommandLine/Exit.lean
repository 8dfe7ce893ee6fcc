import Chip8.CommandLine.Grammar

/-! How a program ends: its exit code and what it wrote. -/
namespace Chip8.CommandLine

structure Exit where
  code : Nat
  out : String := ""
  err : String := ""
  deriving DecidableEq

namespace Exit

def misuse (program : String) (e : UsageError) : Exit :=
  { code := 2, err := program ++ ": " ++ e.message ++ "\n" }

def help {σ : Type} (program : String) (g : Grammar σ) : Exit :=
  { code := 0, err := "Usage: " ++ program ++ " [OPTIONS]\n\n" ++ g.usage ++ "\n" }

end Exit

end Chip8.CommandLine
