/-
# The table of resource bindings
-/
import ShaderReport.Module.Basic
import ShaderReport.Text.Column

namespace ShaderReport.Binding

/-- What stands in the format column; only a view has a component type. -/
def formatText (b : Binding) (view : Option View) : String :=
  match b.resourceClass, b.kind with
  | .constantBuffer, _ | .sampler, _ => "NA"
  | _, .rawBuffer => "byte"
  | _, .structuredBuffer => "struct"
  | _, _ => (view.map (·.component.name)).getD "invalid"

def dimensionText (b : Binding) (view : Option View) : String :=
  match b.resourceClass, b.kind with
  | .constantBuffer, _ | .sampler, _ => "NA"
  | .srv, .rawBuffer | .srv, .structuredBuffer => "r/o"
  | .uav, .rawBuffer | .uav, .structuredBuffer =>
    if view.any (·.hasCounter) then "r/w+cnt" else "r/w"
  | _, .typedBuffer => "buf"
  | _, .texture2DMS | _, .texture2DMSArray =>
    let samples := ((view.map View.samples).getD 0).toNat
    b.kind.dimension ++ (if samples = 0 then "" else samples.repr)
  | _, _ => b.kind.dimension

def countText (b : Binding) : String :=
  if b.isUnbounded then "unbounded" else b.rangeSize.toNat.repr

/-- What stands in the register column: the register, and the space unless it is zero. -/
def registerText (b : Binding) : String :=
  b.resourceClass.registerStart ++ b.lowerBound.toNat.repr ++
    (if b.space = 0 then "" else ",space" ++ b.space.toNat.repr)

def row (b : Binding) (view : Option View) : String :=
  " " ++ Text.padRight 31 b.name ++ Text.padLeft 10 b.resourceClass.name ++
    Text.padLeft 8 (b.formatText view) ++ Text.padLeft 12 (b.dimensionText view) ++
    Text.padLeft 8 (b.resourceClass.idStart ++ b.id.toNat.repr) ++
    Text.padLeft 15 b.registerText ++ Text.padLeft 6 b.countText

end ShaderReport.Binding

namespace ShaderReport

def View.row (v : View) : String := v.binding.row (some v)

/-- The section's lines: constant buffers, samplers, read-only views, writable views. -/
def Module.bindingLines (m : Module) : List String :=
  ["", " Resource Bindings:", "",
   " Name                                 Type  Format         Dim      ID      HLSL Bind  Count",
   " ------------------------------ ---------- ------- ----------- ------- -------------- ------"] ++
    m.shader.constantBuffers.map (·.binding.row none) ++
    m.shader.samplers.map (·.row none) ++
    m.shader.srvs.map View.row ++
    m.shader.uavs.map View.row ++ [""]

end ShaderReport
