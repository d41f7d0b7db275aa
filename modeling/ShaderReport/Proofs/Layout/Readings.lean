/-
# How the lines of a layout read

Declarations and closing labels are followed by a note of their offset, in five columns or
more, and of a size unless it is zero.  `noted` spells such a line out, with the offset as
a number; the two kinds of lines that have a note are read off it (`text_leaf`,
`text_closing`), and one reading is the reading of one offset (`noted_inj`).

The offset of a line is a word.  `toNat_word_add` says which number it is, and
`word_add_exact_iff` when it is the sum that it was meant to be.
-/
import Mathlib.Algebra.GroupWithZero.Nat
import ShaderReport.Layout.Line
import ShaderReport.Proofs.Text.Backwards

namespace ShaderReport

namespace LayoutLine

/-- A text with an offset noted behind it. -/
def noted (marker : Char) (front : String) (offset size : Nat) : String :=
  front ++ marker.toString ++ " Offset:" ++ Text.padLeft 5 offset.repr ++
    (if size = 0 then "" else " Size: " ++ Text.padLeft 5 size.repr)

theorem text_leaf (marker : Char) (indent width : Nat) (declaration : String) (offset : UInt64)
    (size : Nat) :
    (LayoutLine.leaf indent width declaration offset size).text marker =
      noted marker (Text.blanks indent ++ Text.padRight width declaration) offset.toNat size := by
  simp only [text, offsetComment, noted, String.append_assoc]

theorem text_closing (marker : Char) (indent width : Nat) (label : String) (offset : UInt64)
    (size : Nat) :
    (LayoutLine.closing indent width label offset size).text marker =
      noted marker (Text.blanks indent ++ "\x7d " ++ Text.padRight (width - 2) label)
        offset.toNat size := by
  simp only [text, offsetComment, noted, String.append_assoc]

theorem text_placeholder (marker : Char) (indent size : Nat) :
    (LayoutLine.placeholder indent size).text marker =
      Text.blanks indent ++ "[" ++ size.repr ++ " x i8] (type annotation not present)" := by
  simp [text, untyped, factsAbsent, String.append_assoc]

theorem noted_inj {marker : Char} {front : String} {m n size : Nat} :
    noted marker front m size = noted marker front n size ↔ m = n := by
  rw [noted, noted, String.append_left_inj, String.append_right_inj, Text.padLeft_repr_inj]

end LayoutLine

/-! ## Offsets -/

theorem toNat_word_add (base : UInt64) (n : Nat) :
    (base + UInt64.ofNat n).toNat = (base.toNat + n) % 2 ^ 64 := by
  rw [UInt64.toNat_add, UInt64.toNat_ofNat', Nat.add_mod_mod]

theorem word_add_exact_iff (base : UInt64) (n : Nat) :
    (base + UInt64.ofNat n).toNat = base.toNat + n ↔ base.toNat + n < 2 ^ 64 := by
  rw [toNat_word_add]
  constructor
  · intro exact
    rw [← exact]
    exact Nat.mod_lt _ (by decide)
  · exact Nat.mod_eq_of_lt

end ShaderReport
