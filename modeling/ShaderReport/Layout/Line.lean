/-
# `LayoutLine` — the lines of a struct layout

A layout is a list of lines.  Only three kinds carry information: a leaf names a
field, a closing line ends a struct, and a placeholder stands for a struct of
which nothing is known.  The others are frame.
-/
import ShaderReport.Text.Column

namespace ShaderReport

inductive LayoutLine where
  | opening (indent : Nat) (name : String)
  | brace (indent : Nat)
  | leaf (indent width : Nat) (declaration : String) (offset : UInt64) (size : Nat)
  | gap (indent : Nat)
  | closing (indent width : Nat) (label : String) (offset : UInt64) (size : Nat)
  | placeholder (indent size : Nat)
  | blank
deriving DecidableEq, Inhabited

namespace LayoutLine

/-- The comment that states an offset, and a size unless it is zero. -/
def offsetComment (marker : Char) (offset : UInt64) (size : Nat) : String :=
  marker.toString ++ " Offset:" ++ Text.padLeft 5 offset.toNat.repr ++
    (if size = 0 then "" else " Size: " ++ Text.padLeft 5 size.repr)

def factsAbsent : String := "(type annotation not present)"

/-- So many bytes of which nothing else is known. -/
def untyped (size : Nat) : String := "[" ++ size.repr ++ " x i8] " ++ factsAbsent

/-- A line as it is reported, without the marker in front. -/
def text (marker : Char) : LayoutLine → String
  | .opening indent name => Text.blanks indent ++ "struct " ++ name
  | .brace indent => Text.blanks indent ++ "\x7b"
  | .leaf indent width declaration offset size =>
    Text.blanks indent ++ Text.padRight width declaration ++ offsetComment marker offset size
  | .gap indent => Text.blanks indent
  | .closing indent width label offset size =>
    Text.blanks indent ++ "\x7d " ++ Text.padRight (width - 2) label ++
      offsetComment marker offset size
  | .placeholder indent size => Text.blanks indent ++ untyped size
  | .blank => ""

end LayoutLine

end ShaderReport
