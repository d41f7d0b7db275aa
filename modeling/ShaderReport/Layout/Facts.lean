/-
# Layout facts — what types alone do not say

The source language's view of a struct: for every field a name, an offset, a
component type and, for a matrix, its shape.  Facts are kept by type, never by
name, and a struct or function has at most one set of them.
-/
import ShaderReport.Component
import ShaderReport.Types.Table

namespace ShaderReport

/-- Which index of a matrix runs slowest in memory. -/
inductive Orientation where
  | rowMajor
  | columnMajor
deriving DecidableEq, Inhabited

structure MatrixFacts where
  orientation : Orientation
  rows : UInt32
  cols : UInt32
deriving DecidableEq, Inhabited

/-- How many vectors make up one matrix. -/
def MatrixFacts.vectorCount (m : MatrixFacts) : UInt32 :=
  match m.orientation with
  | .rowMajor => m.rows
  | .columnMajor => m.cols

structure FieldFacts where
  name : String := ""
  /-- Bytes from the start of the enclosing struct. -/
  offset : UInt32 := 0
  component : Component := .invalid
  matrix : Option MatrixFacts := none
  precise : Bool := false
deriving DecidableEq, Inhabited

structure StructFacts where
  type : TypeId
  fields : List FieldFacts
  /-- Bytes the struct takes in a constant buffer. -/
  size : UInt32 := 0
  /-- Whether the struct was declared without fields. -/
  empty : Bool := false
deriving DecidableEq, Inhabited

/-- Replaces what is known of one field; a place past the fields changes nothing. -/
def StructFacts.setField (s : StructFacts) (place : Nat) (field : FieldFacts) : StructFacts :=
  { s with fields := s.fields.set place field }

/-- How a parameter passes values. -/
inductive Qualifier where
  | input
  | output
  | inOut
  | inputPatch
  | outputPatch
  | outStream
deriving DecidableEq, Inhabited

structure ParameterFacts where
  field : FieldFacts := {}
  qualifier : Qualifier := .input
  semantic : Option String := none
deriving DecidableEq, Inhabited

structure FunctionFacts where
  /-- The function's place in the module. -/
  function : Nat
  parameters : List ParameterFacts
deriving DecidableEq, Inhabited

/-- Replaces what is known of one parameter; a place past them changes nothing. -/
def FunctionFacts.setParameter (f : FunctionFacts) (place : Nat) (parameter : ParameterFacts) :
    FunctionFacts :=
  { f with parameters := f.parameters.set place parameter }

structure LayoutFacts where
  structs : List StructFacts := []
  functions : List FunctionFacts := []
deriving DecidableEq, Inhabited

namespace LayoutFacts

def struct? (f : LayoutFacts) (type : TypeId) : Option StructFacts :=
  f.structs.find? (·.type == type)

def function? (f : LayoutFacts) (id : Nat) : Option FunctionFacts :=
  f.functions.find? (·.function == id)

def eraseStruct (f : LayoutFacts) (type : TypeId) : LayoutFacts :=
  { f with structs := f.structs.filter (·.type != type) }

def eraseFunction (f : LayoutFacts) (id : Nat) : LayoutFacts :=
  { f with functions := f.functions.filter (·.function != id) }

def insertStruct (f : LayoutFacts) (facts : StructFacts) : LayoutFacts :=
  { f with structs := facts :: (f.eraseStruct facts.type).structs }

def insertFunction (f : LayoutFacts) (facts : FunctionFacts) : LayoutFacts :=
  { f with functions := facts :: (f.eraseFunction facts.function).functions }

/-- What is known of a struct, or facts that say nothing of each of its fields. -/
def structOrBlank (f : LayoutFacts) (t : TypeTable) (type : TypeId) : StructFacts :=
  (f.struct? type).getD { type, fields := List.replicate (t.structFields type).length {} }

/-- What is known of a function, or facts that say nothing of each of its parameters. -/
def functionOrBlank (f : LayoutFacts) (id count : Nat) : FunctionFacts :=
  (f.function? id).getD { function := id, parameters := List.replicate count {} }

end LayoutFacts

end ShaderReport
