/-
# Matrices as named structs

A matrix is a struct with one field, an array of rows, and is known by its name
alone: `class.matrix.`, the element type, the row count, the column count.
-/
import ShaderReport.Types.Text

namespace ShaderReport.TypeTable

def matrixNameStart : String := "class.matrix."

def matrixName (element : String) (rows cols : UInt32) : String :=
  matrixNameStart ++ element ++ "." ++ rows.toNat.repr ++ "." ++ cols.toNat.repr

/-- The matrix type with the given element type: its row vector, the array of rows and
the struct around it are interned in this order. -/
def matrix (t : TypeTable) (element : TypeId) (rows cols : UInt32) : TypeId × TypeTable :=
  let name := matrixName (t.text element) rows cols
  let (row, t) := t.intern (.vector element cols)
  let (storage, t) := t.intern (.array row (.ofNat rows.toNat))
  t.intern (.struct (some name) [storage])

/-- Whether a type bears a matrix name. -/
def isMatrix (t : TypeTable) (id : TypeId) : Bool :=
  (t.structName? id).any (Text.beginsWith matrixNameStart)

/-- The element type of a matrix struct that is one array of vectors. -/
def matrixElement? (t : TypeTable) (id : TypeId) : Option TypeId :=
  if t.isMatrix id then
    match t.structFields id with
    | [storage] => (t.arrayElement? storage).bind t.vectorElement?
    | _ => none
  else none

end ShaderReport.TypeTable
