import Chip8.Fault

/-! Memory of 4096 bytes. Every address is taken modulo the size, so no access fails. -/
namespace Chip8

structure Memory where
  cells : Vector UInt8 4096
  deriving DecidableEq

namespace Memory

def size : Nat := 4096

def wrap (a : Nat) : Nat := a % size

theorem wrap_lt (a : Nat) : wrap a < 4096 := Nat.mod_lt a (by decide)

def zero : Memory := ⟨Vector.replicate 4096 0⟩

def read (m : Memory) (a : Nat) : UInt8 := m.cells.get ⟨wrap a, wrap_lt a⟩

def write (m : Memory) (a : Nat) (b : UInt8) : Memory :=
  ⟨m.cells.set (wrap a) b (wrap_lt a)⟩

def readBytes (m : Memory) (a count : Nat) : List UInt8 :=
  (List.range count).map fun k => m.read (a + k)

/-- Writes the bytes one after the other, so a later one wins over an earlier one. -/
def writeBytes (m : Memory) (a : Nat) : List UInt8 → Memory
  | [] => m
  | b :: rest => (m.write a b).writeBytes (a + 1) rest

/-- The number in the `count` bytes from `a` on, the most significant first. -/
def readNumber (m : Memory) (count a : Nat) : Nat := bigEndian (m.readBytes a count)

def writeNumber (m : Memory) (count a n : Nat) : Memory :=
  m.writeBytes a (bigEndianBytes count n)

/-- The word at `a`, as an instruction is fetched. -/
def word (m : Memory) (a : Nat) : UInt16 := wordOfBytes (m.read a) (m.read (a + 1))

/-- Zero everywhere but for the font. -/
def fresh : Memory := zero.writeBytes Font.start Font.bytes

def region (m : Memory) (r : Region) : List UInt8 := m.readBytes r.start r.size

def clearRegion (m : Memory) (r : Region) : Memory :=
  m.writeBytes r.start (List.replicate r.size 0)

/-- Lays data over the start of a region, if it fits. -/
def loadRegion (m : Memory) (r : Region) (data : List UInt8) : Except Fault Unit × Memory :=
  if r.size < data.length then (.error (.tooLarge data.length r), m)
  else (.ok (), m.writeBytes r.start data)

def toList (m : Memory) : List UInt8 := m.cells.toList

theorem wrap_wrap (a : Nat) : wrap (wrap a) = wrap a := by
  simp [wrap]

@[simp] theorem read_wrap (m : Memory) (a : Nat) : m.read (wrap a) = m.read a := by
  simp only [read, wrap_wrap]

@[simp] theorem write_wrap (m : Memory) (a : Nat) (b : UInt8) :
    m.write (wrap a) b = m.write a b := by
  simp only [write, wrap_wrap]

theorem read_write (m : Memory) (a c : Nat) (b : UInt8) :
    (m.write a b).read c = if wrap a = wrap c then b else m.read c := by
  simp only [read, write, get_eq_getElem]
  rw [Vector.getElem_set]

@[simp] theorem length_readBytes (m : Memory) (a count : Nat) :
    (m.readBytes a count).length = count := by
  simp [readBytes]

end Chip8.Memory
