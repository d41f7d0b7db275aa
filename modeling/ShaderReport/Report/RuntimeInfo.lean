/-
# The section on pipeline facts
-/
import ShaderReport.RuntimeInfo

namespace ShaderReport.RuntimeInfo

def flagText (flag : Bool) : String := if flag then "1" else "0"

/-- A stage and its facts. -/
def factLines : RuntimeInfo → List String
  | .vertex positionPresent =>
    [" Vertex Shader", " OutputPositionPresent=" ++ flagText positionPresent]
  | .pixel depthOutput sampleFrequency =>
    [" Pixel Shader",
     " DepthOutput=" ++ flagText depthOutput,
     " SampleFrequency=" ++ flagText sampleFrequency]
  | .geometry inputPrimitive topology streamMask positionPresent =>
    [" Geometry Shader",
     " InputPrimitive=" ++ nameIn inputPrimitives inputPrimitive,
     " OutputTopology=" ++ nameIn topologies topology,
     " OutputStreamMask=" ++ streamMask.toNat.repr,
     " OutputPositionPresent=" ++ flagText positionPresent]
  | .hull inputPoints outputPoints tessDomain primitive =>
    [" Hull Shader",
     " InputControlPointCount=" ++ inputPoints.toNat.repr,
     " OutputControlPointCount=" ++ outputPoints.toNat.repr,
     " Domain=" ++ nameIn tessDomains tessDomain,
     " OutputPrimitive=" ++ nameIn tessPrimitives primitive]
  | .domain inputPoints positionPresent =>
    [" Domain Shader",
     " InputControlPointCount=" ++ inputPoints.toNat.repr,
     " OutputPositionPresent=" ++ flagText positionPresent]
  | .other _ => []

def lines (info : RuntimeInfo) : List String :=
  ["", " Pipeline Runtime Information:", ""] ++ info.factLines ++ [""]

end ShaderReport.RuntimeInfo
