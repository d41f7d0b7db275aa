/-
# `Shape` — one layer of a type

The types of a module live in a table; a type is a place in that table, and its
shape says how it is made from types at other places.
-/

namespace ShaderReport

/-- A place in a type table. -/
abbrev TypeId := Nat

/-- One layer of a type. -/
inductive Shape where
  | void
  | label
  | metadata
  | half
  | float
  | double
  | integer (bits : UInt32)
  | vector (element : TypeId) (length : UInt32)
  | array (element : TypeId) (length : UInt64)
  /-- A struct without a name is a literal one. -/
  | struct (name : Option String) (fields : List TypeId)
  | pointer (pointee : TypeId) (addressSpace : UInt32)
  | function (result : TypeId) (parameters : List TypeId)
deriving DecidableEq, Inhabited

namespace Shape

/-- The types a shape is made from, in order. -/
def components : Shape → List TypeId
  | .vector element _ | .array element _ => [element]
  | .struct _ fields => fields
  | .pointer pointee _ => [pointee]
  | .function result parameters => result :: parameters
  | _ => []

def structName? : Shape → Option String
  | .struct name _ => name
  | _ => none

/-- The field types of a struct; nothing else has any. -/
def structFields : Shape → List TypeId
  | .struct _ fields => fields
  | _ => []

def isArray : Shape → Bool
  | .array .. => true
  | _ => false

def isVector : Shape → Bool
  | .vector .. => true
  | _ => false

def isStruct : Shape → Bool
  | .struct .. => true
  | _ => false

def isPointer : Shape → Bool
  | .pointer .. => true
  | _ => false

def arrayElement? : Shape → Option TypeId
  | .array element _ => some element
  | _ => none

def arrayLength? : Shape → Option UInt64
  | .array _ length => some length
  | _ => none

def vectorElement? : Shape → Option TypeId
  | .vector element _ => some element
  | _ => none

def vectorLength? : Shape → Option UInt32
  | .vector _ length => some length
  | _ => none

def pointee? : Shape → Option TypeId
  | .pointer pointee _ => some pointee
  | _ => none

/-- Whether two shapes denote one type: named structs by their names, all other
shapes by being equal. -/
def same (s t : Shape) : Bool :=
  match s.structName? with
  | some name => t.structName? == some name
  | none => t == s

end Shape

end ShaderReport
