/-
# `Resource` — buffers, textures and samplers bound to registers
-/
import ShaderReport.Component
import ShaderReport.Types.Shape

namespace ShaderReport

/-- The register files resources are bound in. -/
inductive ResourceClass where
  /-- Read-only views. -/
  | srv
  /-- Views that can be written. -/
  | uav
  | constantBuffer
  | sampler
deriving DecidableEq, Inhabited

namespace ResourceClass

def name : ResourceClass → String
  | .srv => "texture"
  | .uav => "UAV"
  | .constantBuffer => "cbuffer"
  | .sampler => "sampler"

/-- How the identifier of a resource of the class begins. -/
def idStart : ResourceClass → String
  | .srv => "T"
  | .uav => "U"
  | .constantBuffer => "CB"
  | .sampler => "S"

/-- How the register of a resource of the class begins. -/
def registerStart : ResourceClass → String
  | .srv => "t"
  | .uav => "u"
  | .constantBuffer => "cb"
  | .sampler => "s"

end ResourceClass

inductive ResourceKind where
  | invalid
  | texture1D
  | texture2D
  | texture2DMS
  | texture3D
  | textureCube
  | texture1DArray
  | texture2DArray
  | texture2DMSArray
  | textureCubeArray
  | typedBuffer
  | rawBuffer
  | structuredBuffer
  | constantBuffer
  | sampler
  | textureBuffer
deriving DecidableEq, Inhabited

def ResourceKind.dimension : ResourceKind → String
  | .invalid => "invalid"
  | .texture1D => "1d"
  | .texture2D => "2d"
  | .texture2DMS => "2dMS"
  | .texture3D => "3d"
  | .textureCube => "cube"
  | .texture1DArray => "1darray"
  | .texture2DArray => "2darray"
  | .texture2DMSArray => "2darrayMS"
  | .textureCubeArray => "cubearray"
  | .typedBuffer => "buf"
  | .rawBuffer => "rawbuf"
  | .structuredBuffer => "structbuf"
  | .constantBuffer => "cbuffer"
  | .sampler => "sampler"
  | .textureBuffer => "tbuffer"

structure Binding where
  resourceClass : ResourceClass
  kind : ResourceKind
  name : String
  id : UInt32 := 0
  space : UInt32 := 0
  lowerBound : UInt32 := 0
  /-- Number of registers; all ones for every register from the lower bound on. -/
  rangeSize : UInt32 := 1
  /-- The global whose type describes the contents, by its place in the module. -/
  symbol : Option Nat := none
deriving DecidableEq, Inhabited

/-- Whether the binding takes every register from its lower bound on. -/
def Binding.isUnbounded (b : Binding) : Bool := b.rangeSize = 0xFFFFFFFF

structure ConstantBuffer where
  binding : Binding
  /-- Declared size in bytes. -/
  size : UInt32
deriving DecidableEq, Inhabited

/-- A texture or buffer that is read or written through a view. -/
structure View where
  binding : Binding
  component : Component := .invalid
  /-- Samples per texel, zero if unstated. -/
  samples : UInt32 := 0
  hasCounter : Bool := false
  elementType : Option TypeId := none
deriving DecidableEq, Inhabited

namespace View

def isStructuredBuffer (v : View) : Bool := v.binding.kind = .structuredBuffer

def isRawBuffer (v : View) : Bool := v.binding.kind = .rawBuffer

def isTextureBuffer (v : View) : Bool := v.binding.kind = .textureBuffer

end View

end ShaderReport
