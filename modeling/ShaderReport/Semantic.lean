/-
# `SemanticElement` — a module's own signatures
-/

namespace ShaderReport

/-- How a value is carried across a primitive. -/
inductive Interpolation where
  | undefined
  | constant
  | linear
  | linearCentroid
  | linearNoperspective
  | linearNoperspectiveCentroid
  | linearSample
  | linearNoperspectiveSample
  | invalid
deriving DecidableEq, Inhabited

namespace Interpolation

/-- The modes that have codes, in their order. -/
def coded : List Interpolation :=
  [.undefined, .constant, .linear, .linearCentroid, .linearNoperspective,
   .linearNoperspectiveCentroid, .linearSample, .linearNoperspectiveSample]

/-- The mode a number stands for; a number without one is invalid. -/
def ofCode (n : Nat) : Interpolation := coded.getD n .invalid

def name : Interpolation → String
  | .undefined => "Undefined"
  | .constant => "Constant"
  | .linear => "Linear"
  | .linearCentroid => "LinearCentroid"
  | .linearNoperspective => "LinearNoperspective"
  | .linearNoperspectiveCentroid => "LinearNoperspectiveCentroid"
  | .linearSample => "LinearSample"
  | .linearNoperspectiveSample => "LinearNoperspectiveSample"
  | .invalid => "Invalid"

end Interpolation

structure SemanticElement where
  name : String
  /-- One index for every packed row. -/
  indices : List UInt32
  interpolation : Interpolation
deriving DecidableEq, Inhabited

/-- The index that is shown: the first, or zero if there is none. -/
def SemanticElement.firstIndex (e : SemanticElement) : UInt32 := e.indices.headD 0

end ShaderReport
