/-
# `RegisterSignature` — the registers a stage reads or writes

A signature payload is an element count and a table offset, a table of 32-byte
records, and the names the records point at.  The names may stand anywhere in
the payload; each is read up to its zero byte.
-/
import ShaderReport.RegisterSignature.Codes
import ShaderReport.Bytes.LittleEndian
import ShaderReport.Bytes.Indexed

namespace ShaderReport

/-- One value that crosses the stage boundary. -/
structure RegisterElement where
  /-- Output stream of a geometry stage. -/
  stream : UInt32
  /-- Semantic name, such as `TEXCOORD`. -/
  name : String
  /-- Semantic index, such as the 1 of `TEXCOORD1`. -/
  index : UInt32
  /-- Code of a `SystemValue`. -/
  systemValueCode : UInt32
  /-- Code of a `RegisterFormat`. -/
  formatCode : UInt32
  /-- Register number, or all ones for a value outside the register file. -/
  register : UInt32
  /-- Components present in the register. -/
  mask : UInt8
  /-- Components always read (input) or never written (output). -/
  usage : UInt8
  minPrecision : UInt32
deriving DecidableEq, Inhabited

namespace RegisterElement

/-- The register number of a value outside the register file. -/
def noRegister : UInt32 := 0xFFFFFFFF

def systemValue? (e : RegisterElement) : Option SystemValue :=
  SystemValue.ofCode? e.systemValueCode.toNat

def format? (e : RegisterElement) : Option RegisterFormat :=
  RegisterFormat.ofCode? e.formatCode.toNat

def hasRegister (e : RegisterElement) : Bool := e.register ≠ noRegister

end RegisterElement

structure RegisterSignature where
  elements : List RegisterElement
deriving DecidableEq, Inhabited

/-- Whether any element goes to a stream other than the first. -/
def RegisterSignature.hasStreams (s : RegisterSignature) : Bool :=
  s.elements.any (·.stream ≠ 0)

inductive SignatureFault where
  | count (cause : ReadError)
  | tableOffset (cause : ReadError)
  | tableRange (start stop available : Nat)
  | element (index : Nat) (cause : ReadError)
deriving DecidableEq

def SignatureFault.message : SignatureFault → String
  | .count cause => s!"param_count: {cause.message}"
  | .tableOffset cause => s!"param_offset: {cause.message}"
  | .tableRange start stop available =>
    s!"signature table at {start}..{stop} is outside part length {available}"
  | .element index cause => s!"element {index}: {cause.message}"

namespace RegisterSignature

/-- Bytes in front of everything else: count and table offset. -/
def headerLength : Nat := 8

def recordLength : Nat := 32

/-- The element whose record stands at the front of `table`, which holds a whole one;
its name stands in the payload. -/
def readElement (payload : Indexed) (table : Bytes) : Except ReadError RegisterElement :=
  (payload.readString (table.u32At 4).toNat).map fun name => {
    stream := table.u32At 0
    name
    index := table.u32At 8
    systemValueCode := table.u32At 12
    formatCode := table.u32At 16
    register := table.u32At 20
    mask := table.u8At 24
    usage := table.u8At 25
    minPrecision := table.u32At 28 }

/-- The first `count` elements of a table; the first of them has the given index. -/
def readElements (payload : Indexed) :
    (count index : Nat) → (table : Bytes) → Except SignatureFault (List RegisterElement)
  | 0, _, _ => .ok []
  | count + 1, index, table =>
    match readElement payload table with
    | .error cause => .error (.element index cause)
    | .ok e =>
      match readElements payload count (index + 1) (table.drop recordLength) with
      | .error fault => .error fault
      | .ok rest => .ok (e :: rest)

/-- Reads a signature.  A count of zero is an empty signature wherever its table
would be. -/
def parse (b : Bytes) : Except SignatureFault RegisterSignature :=
  match b.readU32 0 with
  | .error cause => .error (.count cause)
  | .ok count =>
    match b.readU32 4 with
    | .error cause => .error (.tableOffset cause)
    | .ok start =>
      if count = 0 then .ok ⟨[]⟩
      else
        let stop := start.toNat + count.toNat * recordLength
        if start.toNat < headerLength ∨ b.length < stop then
          .error (.tableRange start.toNat stop b.length)
        else (readElements b.index count.toNat 0 (b.drop start.toNat)).map (⟨·⟩)

/-! ## Writing -/

/-- The record of an element whose name stands at `nameOffset`. -/
def recordBytes (e : RegisterElement) (nameOffset : Nat) : Bytes :=
  Bytes.ofUInt32 e.stream ++ Bytes.ofNatLE 4 nameOffset ++ Bytes.ofUInt32 e.index ++
    Bytes.ofUInt32 e.systemValueCode ++ Bytes.ofUInt32 e.formatCode ++
    Bytes.ofUInt32 e.register ++ [e.mask, e.usage] ++ Bytes.ofUInt16 0 ++
    Bytes.ofUInt32 e.minPrecision

/-- The records of elements whose names stand one behind the other from `names` on. -/
def tableBytes : (names : Nat) → List RegisterElement → Bytes
  | _, [] => []
  | names, e :: rest =>
    recordBytes e names ++ tableBytes (names + (Bytes.ofString e.name).length) rest

/-- A signature payload: header, records, names, and zeros up to whole words. -/
def build (elements : List RegisterElement) : Bytes :=
  let names := elements.flatMap fun e => Bytes.ofString e.name
  let body := Bytes.ofNatLE 4 elements.length ++ Bytes.ofNatLE 4 headerLength ++
    tableBytes (headerLength + recordLength * elements.length) elements ++ names
  body ++ List.replicate ((4 - body.length % 4) % 4) 0

end RegisterSignature

end ShaderReport
