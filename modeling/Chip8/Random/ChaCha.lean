import Chip8.Word

/-! The ChaCha block function with twelve rounds: sixteen words for a key and a counter. -/
namespace Chip8.ChaCha

abbrev State := Vector UInt32 16

abbrev CipherKey := Vector UInt32 8

/-- Turns a word to the left by `n` places, for `0 < n < 32`. -/
def rotateLeft (w n : UInt32) : UInt32 := (w <<< n) ||| (w >>> (32 - n))

/-- Adds word `b` to word `a`, then mixes `a` into word `d` and turns that by `n` places. -/
def mix (s : State) (a b d : Fin 16) (n : UInt32) : State :=
  let s := s.set a.val (s.get a + s.get b) (digit_lt a)
  s.set d.val (rotateLeft (s.get d ^^^ s.get a) n) (digit_lt d)

def quarterRound (s : State) (a b c d : Fin 16) : State :=
  let s := mix s a b d 16
  let s := mix s c d b 12
  let s := mix s a b d 8
  mix s c d b 7

/-- The four columns, then the four diagonals. -/
def doubleRound (s : State) : State :=
  let s := quarterRound s 0 4 8 12
  let s := quarterRound s 1 5 9 13
  let s := quarterRound s 2 6 10 14
  let s := quarterRound s 3 7 11 15
  let s := quarterRound s 0 5 10 15
  let s := quarterRound s 1 6 11 12
  let s := quarterRound s 2 7 8 13
  quarterRound s 3 4 9 14

def rounds : Nat → State → State
  | 0, s => s
  | n + 1, s => rounds n (doubleRound s)

/-- Four constants, the key, the counter with its low word first, and a nonce of zero. -/
def start (key : CipherKey) (counter : Nat) : State :=
  #v[0x61707865, 0x3320646e, 0x79622d32, 0x6b206574,
    key[0], key[1], key[2], key[3], key[4], key[5], key[6], key[7],
    UInt32.ofNat counter, UInt32.ofNat (counter / 0x100000000), 0, 0]

/-- Six double rounds, added to where they started. -/
def block (key : CipherKey) (counter : Nat) : State :=
  let s := start key counter
  Vector.zipWith (· + ·) s (rounds 6 s)

end Chip8.ChaCha
