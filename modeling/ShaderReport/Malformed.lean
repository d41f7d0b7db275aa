/-
# `Malformed` — a payload that does not decode

Each kind of payload has its own list of faults; this is their sum.
-/
import ShaderReport.Container.Basic
import ShaderReport.Program.Basic
import ShaderReport.Feature
import ShaderReport.RegisterSignature.Basic
import ShaderReport.RuntimeInfo

namespace ShaderReport

/-- What did not decode, and why. -/
inductive Malformed where
  | container (fault : ContainerFault)
  | program (fault : ProgramFault)
  | features (fault : FeatureFault)
  | signature (fault : SignatureFault)
  | runtimeInfo (fault : RuntimeInfoFault)
deriving DecidableEq

namespace Malformed

/-- The fault alone, in words. -/
def context : Malformed → String
  | .container fault => fault.message
  | .program fault => fault.message
  | .features fault => fault.message
  | .signature fault => fault.message
  | .runtimeInfo fault => fault.message

/-- What kind of payload it is. -/
def subject : Malformed → String
  | .container _ => "container"
  | .program _ => "program header"
  | .features _ => "feature info"
  | .signature _ => "signature"
  | .runtimeInfo _ => "pipeline runtime info"

/-- The whole complaint. -/
def message (m : Malformed) : String := "malformed " ++ m.subject ++ ": " ++ m.context

end Malformed

end ShaderReport
