/-
# Signature tables

Two kinds of tables: one for the registers listed in a container's part, and one
for the signatures a module itself carries.
-/
import ShaderReport.RegisterSignature.Basic
import ShaderReport.Semantic
import ShaderReport.Text.Column

namespace ShaderReport

/-- Which side of the stage a signature describes. -/
inductive Direction where
  | input
  | output
deriving DecidableEq, Inhabited

namespace RegisterElement

/-- The letters of the components in a mask, blanks for those that are not. -/
def maskText (mask : UInt8) : String :=
  String.ofList ("xyzw".toList.zipIdx.map fun (letter, bit) =>
    if mask.toNat.testBit bit then letter else ' ')

def sameIgnoringCase (s t : String) : Bool :=
  s.toList.map Char.toLower == t.toList.map Char.toLower

/-- The semantics that have a register of their own outside the register file. -/
def specialRegisters : List (String × String) :=
  [("SV_Depth", "   oDepth"),
   ("SV_DepthGreaterEqual", " oDepthGE"),
   ("SV_DepthLessEqual", " oDepthLE"),
   ("SV_Coverage", "    oMask"),
   ("SV_StencilRef", "    oStencilRef")]

/-- What is shown for the register of an element outside the register file. -/
def specialRegisterText (e : RegisterElement) : String :=
  match specialRegisters.find? fun (name, _) => sameIgnoringCase name e.name with
  | some (_, text) => text
  | none => if e.systemValue? = some .primitiveId then "   primID" else "  special"

/-- The components in use: those always read, or those not marked as never written. -/
def used (e : RegisterElement) : Direction → UInt8
  | .input => e.usage
  | .output => ~~~e.usage

def row (e : RegisterElement) (hasStreams : Bool) (direction : Direction) : String :=
  let name :=
    if hasStreams then "m" ++ e.stream.toNat.repr ++ ":" ++ Text.padRight 17 e.name
    else Text.padRight 20 e.name
  let register :=
    if e.hasRegister then "   " ++ maskText e.mask ++ Text.padLeft 9 e.register.toNat.repr
    else "    N/A" ++ e.specialRegisterText
  let systemValue := (e.systemValue?.map SystemValue.shortName).getD "unknown"
  let format := (e.format?.map RegisterFormat.shortName).getD "unknown"
  let used :=
    if e.hasRegister then "   " ++ maskText (e.used direction)
    else if e.used direction = 0 then "     NO" else "    YES"
  " " ++ name ++ Text.padLeft 6 e.index.toNat.repr ++ register ++
    Text.padLeft 9 systemValue ++ Text.padLeft 8 format ++ used

end RegisterElement

def signatureTitle (title : String) : List String := ["", " " ++ title ++ " signature:", ""]

/-- The rows of a register signature, which all name their stream or all do not. -/
def RegisterSignature.rows (s : RegisterSignature) (direction : Direction) : List String :=
  let hasStreams := s.hasStreams
  s.elements.map fun e => e.row hasStreams direction

/-- The table of a register signature; an empty one says so and has no last line. -/
def RegisterSignature.lines (s : RegisterSignature) (title : String) (direction : Direction) :
    List String :=
  signatureTitle title ++
    [" Name                 Index   Mask Register SysValue  Format   Used",
     " -------------------- ----- ------ -------- -------- ------- ------"] ++
    if s.elements.isEmpty then [" no parameters"] else s.rows direction ++ [""]

def SemanticElement.row (e : SemanticElement) : String :=
  " " ++ Text.padRight 20 e.name ++ Text.padLeft 6 e.firstIndex.toNat.repr ++
    Text.padLeft 23 e.interpolation.name

/-- The table of a module's signature; there is none for an empty one, and none has a
last line of its own. -/
def SemanticElement.lines (elements : List SemanticElement) (title : String) : List String :=
  if elements.isEmpty then []
  else signatureTitle title ++
    [" Name                 Index             InterpMode",
     " -------------------- ----- ----------------------"] ++
    elements.map row

end ShaderReport
