/-
# `RuntimeInfo` — facts the pipeline checks at run time

The payload is a record size and a record.  What the record means depends on the
program's stage, which comes from the program and never from the payload.  Some
fields are places in tables of names; a field past its table is refused.
-/
import ShaderReport.Program.Stage
import ShaderReport.Bytes.LittleEndian

namespace ShaderReport

inductive RuntimeInfo where
  | vertex (positionPresent : Bool)
  | pixel (depthOutput sampleFrequency : Bool)
  | geometry (inputPrimitive topology streamMask : UInt32) (positionPresent : Bool)
  | hull (inputPoints outputPoints tessDomain primitive : UInt32)
  | domain (inputPoints : UInt32) (positionPresent : Bool)
  /-- A stage with no facts to report. -/
  | other (stage : Stage)
deriving DecidableEq, Inhabited

namespace RuntimeInfo

/-! ## Tables of names -/

/-- Primitives a geometry stage can read. -/
def inputPrimitives : List String :=
  ["invalid", "point", "line", "triangle", "invalid", "invalid", "lineadj", "triangleadj",
   "patch1", "patch2", "patch3", "patch4", "patch5", "patch6", "patch7", "patch8", "patch9",
   "patch10", "patch11", "patch12", "patch13", "patch14", "patch15", "patch16", "patch17",
   "patch18", "patch19", "patch20", "patch21", "patch22", "patch23", "patch24", "patch25",
   "patch26", "patch27", "patch28", "patch29", "patch30", "patch31", "patch32"]

/-- Primitives a geometry stage can write. -/
def topologies : List String := ["invalid", "point", "invalid", "line", "invalid", "triangle"]

def tessDomains : List String := ["invalid", "isoline", "tri", "quad"]

/-- Primitives a tessellator can write. -/
def tessPrimitives : List String := ["invalid", "point", "line", "triangle_cw", "triangle_ccw"]

/-- A table's name for a place; a place past the table is invalid too. -/
def nameIn (table : List String) (place : UInt32) : String := table.getD place.toNat "invalid"

end RuntimeInfo

inductive RuntimeInfoFault where
  | recordSize (cause : ReadError)
  | record (stage : Stage) (declared : UInt32) (cause : ReadError)
  | outOfRange (field : String) (value : UInt32) (limit : Nat)
deriving DecidableEq

def RuntimeInfoFault.message : RuntimeInfoFault → String
  | .recordSize cause => s!"runtime_info_size: {cause.message}"
  | .record stage declared cause =>
    s!"{stage.name} info (declared size {declared}): {cause.message}"
  | .outOfRange field value limit => s!"{field} {value} is out of range (0..{limit})"

namespace RuntimeInfo

/-- A byte read as a truth value. -/
def readFlag (record : Bytes) (offset : Nat) : Except ReadError Bool :=
  (record.readU8 offset).map (· ≠ 0)

/-- The fields of a stage's record, in order. -/
def readRecord (record : Bytes) : Stage → Except ReadError RuntimeInfo
  | .vertex => do
    let positionPresent ← readFlag record 0
    return .vertex positionPresent
  | .pixel => do
    let depthOutput ← readFlag record 0
    let sampleFrequency ← readFlag record 1
    return .pixel depthOutput sampleFrequency
  | .geometry => do
    let inputPrimitive ← record.readU32 0
    let topology ← record.readU32 4
    let streamMask ← record.readU32 8
    let positionPresent ← readFlag record 12
    return .geometry inputPrimitive topology streamMask positionPresent
  | .hull => do
    let inputPoints ← record.readU32 0
    let outputPoints ← record.readU32 4
    let tessDomain ← record.readU32 8
    let primitive ← record.readU32 12
    return .hull inputPoints outputPoints tessDomain primitive
  | .domain => do
    let inputPoints ← record.readU32 0
    let positionPresent ← readFlag record 4
    return .domain inputPoints positionPresent
  | stage => .ok (.other stage)

/-- The first field that lies past its table. -/
def rangeFault? : RuntimeInfo → Option RuntimeInfoFault
  | .geometry inputPrimitive topology _ _ =>
    if inputPrimitives.length ≤ inputPrimitive.toNat then
      some (.outOfRange "input primitive" inputPrimitive inputPrimitives.length)
    else if topologies.length ≤ topology.toNat then
      some (.outOfRange "output topology" topology topologies.length)
    else none
  | .hull _ _ tessDomain primitive =>
    if tessDomains.length ≤ tessDomain.toNat then
      some (.outOfRange "tessellator domain" tessDomain tessDomains.length)
    else if tessPrimitives.length ≤ primitive.toNat then
      some (.outOfRange "tessellator output primitive" primitive tessPrimitives.length)
    else none
  | _ => none

/-- Reads the facts for a stage.  The record is what is declared of it or what is
there, whichever is less. -/
def parse (b : Bytes) (stage : Stage) : Except RuntimeInfoFault RuntimeInfo :=
  match b.readU32 0 with
  | .error cause => .error (.recordSize cause)
  | .ok declared =>
    match readRecord ((b.drop 4).take declared.toNat) stage with
    | .error cause => .error (.record stage declared cause)
    | .ok info =>
      match info.rangeFault? with
      | some fault => .error fault
      | none => .ok info

def build (record : Bytes) : Bytes := Bytes.ofNatLE 4 record.length ++ record

end RuntimeInfo

end ShaderReport
