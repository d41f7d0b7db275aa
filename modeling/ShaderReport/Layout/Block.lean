/-
# Struct layouts

The layout of a struct as the source language would declare it, every field with
its offset from the start of the outermost struct.  A field is either a leaf, or
a struct that gets a block of its own four columns further in; the offset
comments stand in one column all the same, because the width left for a
declaration shrinks as the indent grows.

A matrix is stored as one more array level, so the number of its vectors is
divided out of the array size that is shown.
-/
import ShaderReport.Layout.Facts
import ShaderReport.Layout.Line
import ShaderReport.Types.Extent
import ShaderReport.Types.Matrix

namespace ShaderReport

/-- Where on the page, and from which offset on, something is laid out. -/
structure Placement where
  offset : UInt64
  indent : Nat
  /-- Columns from the indent to the offset comment. -/
  width : Nat
deriving DecidableEq, Inhabited

namespace Placement

/-- The place of a block's fields. -/
def inner (p : Placement) : Placement :=
  { p with indent := p.indent + 4, width := p.width - 4 }

/-- The same place further on in memory.  Offsets are words, and their sum is one: where it
does not fit, it is what is left of it modulo `2 ^ 64`. -/
def advance (p : Placement) (offset : UInt32) : Placement :=
  { p with offset := p.offset + offset.toUInt64 }

end Placement

namespace Layout

/-- The facts of a struct, if there are any and there is one for each field. -/
def usableFacts? (t : TypeTable) (facts : LayoutFacts) (type : TypeId) : Option StructFacts :=
  (facts.struct? type).filter fun s => s.fields.length = (t.structFields type).length

/-! ## Fields -/

/-- How many elements the array levels make together; zero if there are no levels. -/
def elementCount : List UInt64 → Nat
  | [] => 0
  | lengths => lengths.foldl (fun n length => saturate (n * length.toNat)) 1

/-- What a field shows as.  The count is the array size to show, zero for none. -/
inductive Form where
  | leaf (count : Nat)
  | block (struct : TypeId) (count : Nat)
deriving DecidableEq, Inhabited

/-- The number of matrices in an array of vectors; a single matrix has no array size. -/
def matrixCount (matrix : MatrixFacts) (lengths : List UInt64) : Nat :=
  if lengths.length = 1 then 0
  else if matrix.vectorCount = 0 then elementCount lengths
  else elementCount lengths / matrix.vectorCount.toNat

/-- The component of a vector or of a matrix struct, and any other type as it is. -/
def matrixComponent (t : TypeTable) (element : TypeId) : TypeId :=
  ((t.vectorElement? element).or (t.matrixElement? element)).getD element

def formOf (t : TypeTable) (type : TypeId) (field : FieldFacts) : Form :=
  if t.isStruct type && field.matrix.isNone then .block type 0
  else
    let spine := t.spine type
    let (count, element) := match field.matrix with
      | none => (elementCount spine.lengths, spine.element)
      | some matrix => (matrixCount matrix spine.lengths, matrixComponent t spine.element)
    if t.isStruct element && !t.isMatrix element then .block element count else .leaf count

/-- The array size behind a name. -/
def arraySuffix (count : Nat) : String := if count = 0 then "" else "[" ++ count.repr ++ "]"

def typeText (t : TypeTable) (type : TypeId) (field : FieldFacts) : String :=
  match field.matrix, t.vectorLength? (t.stripArrays type) with
  | some matrix, _ =>
    let orientation := match matrix.orientation with
      | .rowMajor => "row_major"
      | .columnMajor => "column_major"
    orientation ++ " " ++ field.component.keyword ++ matrix.rows.toNat.repr ++ "x" ++
      matrix.cols.toNat.repr
  | none, some length => field.component.keyword ++ length.toNat.repr
  | none, none => field.component.keyword

def declaration (t : TypeTable) (type : TypeId) (field : FieldFacts) (count : Nat) : String :=
  typeText t type field ++ " " ++ field.name ++ arraySuffix count ++ ";"

/-! ## Blocks -/

/-- How to lay out a struct under a given label; the size is shown unless it is zero. -/
abbrev BlockPrinter := (label : String) → Placement → (size : Nat) → List LayoutLine

/-- The lines of a field, given how structs are laid out. -/
def fieldWith (t : TypeTable) (block : TypeId → BlockPrinter) (type : TypeId)
    (field : FieldFacts) (place : Placement) (size : Nat) : List LayoutLine :=
  let place := place.advance field.offset
  match formOf t type field with
  | .block struct count => block struct (field.name ++ arraySuffix count ++ ";") place 0
  | .leaf count =>
    [.leaf place.indent place.width (declaration t type field count) place.offset size]

/-- The lines of a struct, given how the structs inside it are laid out. -/
def blockWith (t : TypeTable) (facts : LayoutFacts) (block : TypeId → BlockPrinter)
    (type : TypeId) : BlockPrinter := fun label place size =>
  match usableFacts? t facts type with
  | none => [.placeholder place.indent (t.allocSize type)]
  | some known =>
    [.opening place.indent ((t.structName? type).getD ""), .brace place.indent, .blank] ++
      ((t.structFields type).zip known.fields).flatMap (fun (type, field) =>
        fieldWith t block type field place.inner 0) ++
      [.gap place.indent, .closing place.indent place.width label place.offset size, .blank]

def block (t : TypeTable) (facts : LayoutFacts) : TypeId → BlockPrinter :=
  t.fold fun type _ below => blockWith t facts below type

def field (t : TypeTable) (facts : LayoutFacts) (type : TypeId) (field : FieldFacts)
    (place : Placement) (size : Nat) : List LayoutLine :=
  fieldWith t (block t facts) type field place size

end Layout

end ShaderReport
