import Chip8.Memory.Hexdump
import Chip8.Proofs.Memory
import Chip8.Proofs.Text.Terminal
import Mathlib.Tactic.IntervalCases

/-! The hexadecimal dump of memory. Every byte stands at its own place in the lines of the dump, so
memory is read back from it. -/
namespace Chip8.Memory
open Chip8.Text

/-- Two bytes from `a` on, with two digits each and no gap. -/
def pairChars (m : Memory) (a : Nat) : List Char :=
  hexColumns 2 (m.read a).toNat ++ hexColumns 2 (m.read (a + 1)).toNat

/-- Eight bytes from `a` on, in pairs. -/
def halfChars (m : Memory) (a : Nat) : List Char :=
  [' '].intercalate
    [m.pairChars a, m.pairChars (a + 2), m.pairChars (a + 4), m.pairChars (a + 6)]

/-- A line of the dump: the address with three digits and a colon, and sixteen bytes in pairs, with
a wider gap after the first eight. -/
def lineChars (m : Memory) (r : Nat) : List Char :=
  hexColumns 3 (16 * r) ++ [':', ' '] ++ m.halfChars (16 * r) ++ [' ', ' '] ++
    m.halfChars (16 * r + 8)

def startOf (k : Nat) : Nat := 5 + 2 * k + k / 2 + k / 8

def byteAt (line : List Char) (k : Nat) : UInt8 :=
  UInt8.ofNat (digitsValue 16 0 ((line.drop (startOf k)).take 2))

def readDump (text : String) : Memory :=
  let lines := text.toList.splitOn '\n'
  ⟨Vector.ofFn fun a : Fin 4096 => byteAt (lines.getD (a / 16) []) (a % 16)⟩

variable (m : Memory)

theorem toList_hex_read (a : Nat) :
    (hex 2 (m.read a).toNat).toList = hexColumns 2 (m.read a).toNat :=
  toList_hex_of_lt (by decide) (m.read a).toNat_lt

theorem toList_hex_address {r : Nat} (hr : r < 256) :
    (hex 3 (16 * r)).toList = hexColumns 3 (16 * r) :=
  toList_hex_of_lt (by decide) (by omega)

theorem byteAt_lineChars (r : Nat) {k : Nat} (hk : k < 16) :
    byteAt (m.lineChars r) k = m.read (16 * r + k) := by
  have hdigits : ((m.lineChars r).drop (startOf k)).take 2 =
      hexColumns 2 (m.read (16 * r + k)).toNat := by
    interval_cases k <;> rfl
  have hbyte : (m.read (16 * r + k)).toNat % 16 ^ 2 = (m.read (16 * r + k)).toNat :=
    Nat.mod_eq_of_lt (m.read (16 * r + k)).toNat_lt
  rw [byteAt, hdigits, digitsValue_hexColumns, hbyte, UInt8.ofNat_toNat]

/-- The sixteen bytes of a row with the gaps behind them are the two halves of its line. -/
theorem toList_join_bytes (r : Nat) :
    (String.join ((List.range 16).map fun k =>
      hex 2 (m.read (16 * r + k)).toNat ++ gap k)).toList =
      m.halfChars (16 * r) ++ [' ', ' '] ++ m.halfChars (16 * r + 8) ++ ['\n'] := by
  rw [String.toList_join, List.flatMap_map]
  simp only [String.toList_append, toList_hex_read]
  rfl

theorem printable_pairChars (a : Nat) : Printable (m.pairChars a) := by
  rw [pairChars, ← toList_hex_read, ← toList_hex_read, printable_append]
  exact ⟨printable_hex 2 _, printable_hex 2 _⟩

theorem printable_halfChars (a : Nat) : Printable (m.halfChars a) := by
  have hblank : Printable [' '] := by decide
  simp only [halfChars, List.intercalate_cons_cons, List.intercalate_singleton, printable_append,
    printable_pairChars, hblank, and_self]

theorem printable_lineChars {r : Nat} (hr : r < 256) : Printable (m.lineChars r) := by
  rw [lineChars, ← toList_hex_address hr]
  simp only [printable_append, printable_hex, printable_halfChars, and_true, true_and]
  decide

/-- Without colours, a row is its line. -/
theorem unstyledChars_dumpRow {r : Nat} (hr : r < 256) (rest : List Char) :
    unstyledChars ((m.dumpRow r).toList ++ rest) =
      m.lineChars r ++ '\n' :: unstyledChars rest := by
  have haddress : '\x1b' ∉ (hex 3 (16 * r)).toList := (printable_hex 3 (16 * r)).escape_notMem
  have hbytes : '\x1b' ∉
      m.halfChars (16 * r) ++ [' ', ' '] ++ m.halfChars (16 * r + 8) ++ ['\n'] := by
    simp only [List.mem_append, not_or]
    exact ⟨⟨⟨(m.printable_halfChars _).escape_notMem, by decide⟩,
      (m.printable_halfChars _).escape_notMem⟩, by decide⟩
  simp only [dumpRow, String.toList_append, List.append_assoc]
  rw [unstyledChars_paint _ haddress, unstyledChars_paint _ (by decide),
    unstyledChars_append (by decide), toList_join_bytes, unstyledChars_append hbytes,
    toList_hex_address hr]
  simp [lineChars]

theorem unstyled_join_rows {rows : List Nat} (h : ∀ r ∈ rows, r < 256) :
    unstyled (String.join (rows.map m.dumpRow)) =
      String.join ((rows.map m.lineChars).map fun l => String.ofList l ++ "\n") := by
  apply String.toList_inj.mp
  rw [unstyled, String.toList_ofList, String.toList_join, String.toList_join]
  induction rows with
  | nil => exact unstyledChars_nil
  | cons r rows ih =>
    rw [List.forall_mem_cons] at h
    simp only [List.map_cons, List.flatMap_cons]
    rw [m.unstyledChars_dumpRow h.1, ih h.2]
    simp

theorem hasLines_unstyled_hexdump :
    HasLines (unstyled m.hexdump) ((List.range 256).map m.lineChars) := by
  rw [hexdump, m.unstyled_join_rows fun r hr => List.mem_range.mp hr]
  apply hasLines_join
  intro l hl
  obtain ⟨r, hr, rfl⟩ := List.mem_map.mp hl
  exact (m.printable_lineChars (List.mem_range.mp hr)).newline_notMem

/-- Whatever has the lines of the dump is read back as the memory. -/
theorem readDump_of_hasLines {text : String}
    (h : HasLines text ((List.range 256).map m.lineChars)) : readDump text = m := by
  apply ext_read
  intro a ha
  have hline : (text.toList.splitOn '\n').getD (a / 16) [] = m.lineChars (a / 16) := by
    rw [h, List.getD_eq_getElem?_getD, List.getElem?_append_left (by simp; omega),
      List.getElem?_map, List.getElem?_range (by omega)]
    rfl
  have hread : (readDump text).read a =
      byteAt ((text.toList.splitOn '\n').getD (a / 16) []) (a % 16) := by
    simp [read, readDump, get_eq_getElem, wrap_of_lt ha]
  rw [hread, hline, m.byteAt_lineChars (a / 16) (Nat.mod_lt a (by decide)), Nat.div_add_mod]

theorem readDump_unstyled_hexdump : readDump (unstyled m.hexdump) = m :=
  m.readDump_of_hasLines m.hasLines_unstyled_hexdump

/-- Without its escape sequences a dump has 256 lines of an address and sixteen bytes, and memory is
read back from them. -/
theorem hexdump_faithful :
    HasLines (unstyled m.hexdump) ((List.range 256).map m.lineChars) ∧
    (∀ r < 256, IsHex 3 (16 * r) (hexColumns 3 (16 * r))) ∧
    (∀ a, IsHex 2 (m.read a).toNat (hexColumns 2 (m.read a).toNat)) ∧
    readDump (unstyled m.hexdump) = m ∧
    ∀ n : Memory, (unstyled m.hexdump = unstyled n.hexdump ↔ m = n) ∧
      (m.hexdump = n.hexdump ↔ m = n) := by
  have hinj : ∀ n : Memory, unstyled m.hexdump = unstyled n.hexdump → m = n := by
    intro n h
    rw [← m.readDump_unstyled_hexdump, h, n.readDump_unstyled_hexdump]
  refine ⟨m.hasLines_unstyled_hexdump, ?_, ?_, m.readDump_unstyled_hexdump, fun n => ⟨?_, ?_⟩⟩
  · intro r hr
    rw [← toList_hex_address hr]
    exact isHex_hex 3 (16 * r)
  · intro a
    rw [← toList_hex_read]
    exact isHex_hex 2 (m.read a).toNat
  · refine ⟨hinj n, ?_⟩
    rintro rfl
    rfl
  · exact ⟨fun h => hinj n (congrArg unstyled h), congrArg hexdump⟩

end Chip8.Memory
