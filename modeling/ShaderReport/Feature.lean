/-
# `Feature` — optional hardware features

A payload of one 64-bit word; each of its low sixteen bits names a feature the
shader requires.  Higher bits are kept but have no name.
-/
import ShaderReport.Bytes.LittleEndian

namespace ShaderReport

/-- A named feature, in the order of the bits. -/
inductive Feature where
  | doubles
  | rawAndStructuredBuffers
  | uavsAtEveryStage
  | uavSlots64
  | minimumPrecision
  | doubleExtensions
  | shaderExtensions
  | level9ComparisonFiltering
  | tiledResources
  | stencilRef
  | innerCoverage
  | typedUavLoadFormats
  | rasterizerOrderedViews
  | arrayIndexFromAnyShader
  | waveOps
  | int64Ops
deriving DecidableEq, Inhabited

namespace Feature

/-- All features; a feature's place is its bit. -/
def all : List Feature :=
  [.doubles, .rawAndStructuredBuffers, .uavsAtEveryStage, .uavSlots64, .minimumPrecision,
   .doubleExtensions, .shaderExtensions, .level9ComparisonFiltering, .tiledResources,
   .stencilRef, .innerCoverage, .typedUavLoadFormats, .rasterizerOrderedViews,
   .arrayIndexFromAnyShader, .waveOps, .int64Ops]

def description : Feature → String
  | .doubles => "Double-precision floating point"
  | .rawAndStructuredBuffers => "Raw and Structured buffers"
  | .uavsAtEveryStage => "UAVs at every shader stage"
  | .uavSlots64 => "64 UAV slots"
  | .minimumPrecision => "Minimum-precision data types"
  | .doubleExtensions => "Double-precision extensions for 11.1"
  | .shaderExtensions => "Shader extensions for 11.1"
  | .level9ComparisonFiltering => "Comparison filtering for feature level 9"
  | .tiledResources => "Tiled resources"
  | .stencilRef => "PS Output Stencil Ref"
  | .innerCoverage => "PS Inner Coverage"
  | .typedUavLoadFormats => "Typed UAV Load Additional Formats"
  | .rasterizerOrderedViews => "Raster Ordered UAVs"
  | .arrayIndexFromAnyShader =>
    "SV_RenderTargetArrayIndex or SV_ViewportArrayIndex from any shader feeding rasterizer"
  | .waveOps => "Wave level operations"
  | .int64Ops => "64-Bit integer"

end Feature

/-- A word of feature bits. -/
structure FeatureInfo where
  raw : UInt64
deriving DecidableEq, Inhabited

/-- A payload too short for the word. -/
structure FeatureFault where
  length : Nat
deriving DecidableEq

/-- What is wrong, in words. -/
def FeatureFault.message (fault : FeatureFault) : String :=
  s!"payload is {fault.length} bytes, need 8"

namespace FeatureInfo

/-- Reads the word; bytes behind it do not matter. -/
def parse (b : Bytes) : Except FeatureFault FeatureInfo :=
  if b.length < 8 then .error ⟨b.length⟩ else .ok ⟨b.u64At 0⟩

/-- The payload of a word. -/
def build (raw : UInt64) : Bytes := Bytes.ofUInt64 raw

/-- The sixteen bits that have names, as a number. -/
def knownBits (info : FeatureInfo) : Nat := info.raw.toNat % 65536

/-- The features whose bits are set, in the order of the bits. -/
def features (info : FeatureInfo) : List Feature :=
  (Feature.all.zipIdx.filter fun (_, bit) => info.raw.toNat.testBit bit).map (·.1)

/-- The section on required features: no lines for a zero word, and the frame alone for
bits without names. -/
def lines (info : FeatureInfo) : List String :=
  if info.raw = 0 then []
  else ["", " Note: shader requires additional functionality:"] ++
    info.features.map (fun f => "       " ++ f.description) ++ [""]

end FeatureInfo

end ShaderReport
