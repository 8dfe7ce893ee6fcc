import Chip8.Random.ChaCha
import Chip8.Word

/-! The random numbers of a machine: the words of a keystream, one after the other. -/
namespace Chip8

/-- What makes blocks of words from a key and the number of a block. -/
abbrev BlockFunction := ChaCha.CipherKey → Nat → ChaCha.State

structure Keystream where
  block : BlockFunction
  key : ChaCha.CipherKey
  /-- How many words have been taken. -/
  position : Nat := 0

namespace Keystream

/-- One step of the generator that spreads a seed over a key. -/
def spread (state : UInt64) : UInt64 := state * 6364136223846793005 + 11634580027462260723

/-- The word that a state of that generator stands for: some of its bits, turned to the right by
the number in its top five. -/
def mixed (state : UInt64) : UInt32 :=
  let w := (((state >>> 18) ^^^ state) >>> 27).toUInt32
  let n := (state >>> 59).toUInt32
  if n = 0 then w else ChaCha.rotateLeft w (32 - n)

/-- The state after `n` steps. -/
def spreadBy (seed : UInt64) : Nat → UInt64
  | 0 => seed
  | n + 1 => spread (spreadBy seed n)

def keyOfSeed (seed : UInt64) : ChaCha.CipherKey :=
  Vector.ofFn fun k : Fin 8 => mixed (spreadBy seed (k.val + 1))

/-- The stream of ChaCha with twelve rounds. -/
def ofSeed (seed : UInt64) : Keystream := { block := ChaCha.block, key := keyOfSeed seed }

def word (r : Keystream) (k : Nat) : UInt32 := (r.block r.key (k / 16)).get (lastDigit k)

/-- The low byte of the next word. -/
def peek (r : Keystream) : UInt8 := (r.word r.position).toUInt8

def advance (r : Keystream) : Keystream := { r with position := r.position + 1 }

end Keystream

end Chip8
