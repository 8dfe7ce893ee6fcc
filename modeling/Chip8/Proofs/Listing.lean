import Chip8.CommandLine.Disassembler
import Chip8.Proofs.Form
import Chip8.Proofs.Machine.Invariant
import Chip8.Proofs.Machine.Outcome
import Chip8.Proofs.Memory

/-! A listing is read off the bytes of a program, and a machine fetches words from memory. Both come
to the same words and the same instructions. -/
namespace Chip8
open Chip8.Text

namespace Listing

def words : List UInt8 → List UInt16
  | [] | [_] => []
  | high :: low :: rest => wordOfBytes high low :: words rest

theorem lines_eq_mapIdx (p : Palette) (address : Nat) (bytes : List UInt8) :
    lines p address bytes = (words bytes).mapIdx fun k w => line p (address + 2 * k) w := by
  fun_induction words bytes generalizing address with
  | case1 => rfl
  | case2 b => rfl
  | case3 high low rest ih =>
    rw [lines, ih, List.mapIdx_cons]
    refine congrArg (_ :: ·) (congrArg (List.mapIdx · _) ?_)
    funext k w
    rw [Nat.mul_add, Nat.add_assoc, Nat.add_comm 2]

theorem length_words (bytes : List UInt8) : (words bytes).length = bytes.length / 2 := by
  fun_induction words bytes with
  | case1 => rfl
  | case2 b => simp
  | case3 high low rest ih =>
    simp only [List.length_cons, ih]
    omega

/-- Put together again, the words are the bytes they were read from. -/
theorem flatMap_words (bytes : List UInt8) :
    (words bytes).flatMap (fun w => bigEndianBytes 2 w.toNat) =
      bytes.take (2 * (bytes.length / 2)) := by
  fun_induction words bytes with
  | case1 => rfl
  | case2 b => simp
  | case3 high low rest ih =>
    have hl : 2 * ((high :: low :: rest).length / 2) = 2 * (rest.length / 2) + 1 + 1 := by
      simp only [List.length_cons]
      omega
    rw [List.flatMap_cons, ih, Instruction.bigEndianBytes_wordOfBytes, hl, List.take_succ_cons,
      List.take_succ_cons]
    rfl

end Listing

/-- No instruction reads like a word that is none. -/
theorem Instruction.mnemonic_ne_inval (i : Instruction) (text : String) :
    i.mnemonic ≠ "inval  " ++ text := by
  intro h
  have hhead : i.mnemonic.toList.head? = some 'i' := by
    rw [h]
    simp
  unfold Instruction.mnemonic at hhead
  cases i
  all_goals simp at hhead

namespace Palette

/-- The colours of the two kinds of words differ in the fourth character. -/
theorem paint_valid_ne_paint_invalid {p : Palette} (hp : p = .plain ∨ p = .coloured)
    (i : Instruction) (text : String) :
    p.valid.paint i.mnemonic ≠ p.invalid.paint ("inval  " ++ text) := by
  rcases hp with rfl | rfl
  · exact i.mnemonic_ne_inval text
  · intro h
    have hgreen : escape [32] = "\x1b[32m" := by decide
    have hred : escape [31, 1] = "\x1b[31;1m" := by rfl
    have hc : (coloured.valid.paint i.mnemonic).toList[3]? = some '2' := by
      change (escape [32] ++ i.mnemonic ++ escape [0]).toList[3]? = some '2'
      rw [hgreen]
      simp
    rw [h] at hc
    change (escape [31, 1] ++ ("inval  " ++ text) ++ escape [0]).toList[3]? = some '2' at hc
    rw [hred] at hc
    simp at hc

end Palette

namespace Listing

theorem wordText_of_some {w : UInt16} {i : Instruction} (p : Palette)
    (h : Instruction.decode w = some i) : wordText p w = p.valid.paint i.mnemonic := by
  rw [wordText, h]

/-- In both palettes, just the words that are no instruction are marked as such. -/
theorem wordText_eq_inval_iff {p : Palette} (hp : p = .plain ∨ p = .coloured) (w : UInt16) :
    wordText p w = p.invalid.paint ("inval  " ++ hex 4 w.toNat) ↔
      Instruction.decode w = none := by
  rw [wordText]
  cases Instruction.decode w with
  | none => simp
  | some i => simp [Palette.paint_valid_ne_paint_invalid hp i]

end Listing

namespace Machine

variable {m : Machine}

end Machine

namespace CommandLine.Disassembler

end CommandLine.Disassembler

end Chip8
