/-
# `RegisterSignature.Codes` — what the numbers in a signature stand for

A signature element carries two codes: the meaning the pipeline gives the value,
and the format of its register.  Both are open: a number may stand for nothing.
-/

namespace ShaderReport

/-- The meaning the pipeline gives a value. -/
inductive SystemValue where
  | undefined
  | position
  | clipDistance
  | cullDistance
  | renderTargetArrayIndex
  | viewportArrayIndex
  | vertexId
  | primitiveId
  | instanceId
  | isFrontFace
  | sampleIndex
  | finalQuadEdgeTessFactor
  | finalQuadInsideTessFactor
  | finalTriEdgeTessFactor
  | finalTriInsideTessFactor
  | finalLineDetailTessFactor
  | finalLineDensityTessFactor
  | target
  | depth
  | coverage
  | depthGreaterEqual
  | depthLessEqual
  | stencilRef
  | innerCoverage
deriving DecidableEq, Inhabited

namespace SystemValue

def code : SystemValue → Nat
  | .undefined => 0
  | .position => 1
  | .clipDistance => 2
  | .cullDistance => 3
  | .renderTargetArrayIndex => 4
  | .viewportArrayIndex => 5
  | .vertexId => 6
  | .primitiveId => 7
  | .instanceId => 8
  | .isFrontFace => 9
  | .sampleIndex => 10
  | .finalQuadEdgeTessFactor => 11
  | .finalQuadInsideTessFactor => 12
  | .finalTriEdgeTessFactor => 13
  | .finalTriInsideTessFactor => 14
  | .finalLineDetailTessFactor => 15
  | .finalLineDensityTessFactor => 16
  | .target => 64
  | .depth => 65
  | .coverage => 66
  | .depthGreaterEqual => 67
  | .depthLessEqual => 68
  | .stencilRef => 69
  | .innerCoverage => 70

def ofCode? : Nat → Option SystemValue
  | 0 => some .undefined
  | 1 => some .position
  | 2 => some .clipDistance
  | 3 => some .cullDistance
  | 4 => some .renderTargetArrayIndex
  | 5 => some .viewportArrayIndex
  | 6 => some .vertexId
  | 7 => some .primitiveId
  | 8 => some .instanceId
  | 9 => some .isFrontFace
  | 10 => some .sampleIndex
  | 11 => some .finalQuadEdgeTessFactor
  | 12 => some .finalQuadInsideTessFactor
  | 13 => some .finalTriEdgeTessFactor
  | 14 => some .finalTriInsideTessFactor
  | 15 => some .finalLineDetailTessFactor
  | 16 => some .finalLineDensityTessFactor
  | 64 => some .target
  | 65 => some .depth
  | 66 => some .coverage
  | 67 => some .depthGreaterEqual
  | 68 => some .depthLessEqual
  | 69 => some .stencilRef
  | 70 => some .innerCoverage
  | _ => none

theorem ofCode?_code (v : SystemValue) : ofCode? v.code = some v := by cases v <;> rfl

def shortName : SystemValue → String
  | .undefined => "NONE"
  | .position => "POS"
  | .clipDistance => "CLIPDST"
  | .cullDistance => "CULLDST"
  | .renderTargetArrayIndex => "RTINDEX"
  | .viewportArrayIndex => "VPINDEX"
  | .vertexId => "VERTID"
  | .primitiveId => "PRIMID"
  | .instanceId => "INSTID"
  | .isFrontFace => "FFACE"
  | .sampleIndex => "SAMPLE"
  | .finalQuadEdgeTessFactor => "QUADEDGE"
  | .finalQuadInsideTessFactor => "QUADINT"
  | .finalTriEdgeTessFactor => "TRIEDGE"
  | .finalTriInsideTessFactor => "TRIINT"
  | .finalLineDetailTessFactor => "LINEDET"
  | .finalLineDensityTessFactor => "LINEDEN"
  | .target => "TARGET"
  | .depth => "DEPTH"
  | .coverage => "COVERAGE"
  | .depthGreaterEqual => "DEPTHGE"
  | .depthLessEqual => "DEPTHLE"
  | .stencilRef => "STENCILREF"
  | .innerCoverage => "INNERCOV"

end SystemValue

inductive RegisterFormat where
  | unknown
  | uint32
  | sint32
  | float32
  | uint16
  | sint16
  | float16
  | uint64
  | sint64
  | float64
deriving DecidableEq, Inhabited

namespace RegisterFormat

/-- All formats, in the order of their codes. -/
def all : List RegisterFormat :=
  [.unknown, .uint32, .sint32, .float32, .uint16,
   .sint16, .float16, .uint64, .sint64, .float64]

def ofCode? (n : Nat) : Option RegisterFormat := all[n]?

def shortName : RegisterFormat → String
  | .unknown => "unknown"
  | .uint32 => "uint"
  | .sint32 => "int"
  | .float32 => "float"
  | .uint16 => "min16u"
  | .sint16 => "min16i"
  | .float16 => "min16f"
  | .uint64 => "uint64"
  | .sint64 => "int64"
  | .float64 => "double"

end RegisterFormat

end ShaderReport
