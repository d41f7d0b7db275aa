/-
# `Tag` — four-byte names

Parts of a container, and the container itself, are named by four bytes.  A tag
whose bytes are all printable reads as those four characters; any other tag
reads as eight base-sixteen digits in file order.
-/
import ShaderReport.Bytes.Cursor
import ShaderReport.Text.Numeral

namespace ShaderReport

/-- Four bytes in file order. -/
structure Tag where
  b0 : UInt8
  b1 : UInt8
  b2 : UInt8
  b3 : UInt8
deriving DecidableEq, Inhabited

namespace Tag

/-- The container's own name, `DXBC`. -/
def container : Tag := ⟨0x44, 0x58, 0x42, 0x43⟩

/-- Required features, `SFI0`. -/
def featureInfo : Tag := ⟨0x53, 0x46, 0x49, 0x30⟩

/-- Input registers, `ISG1`. -/
def inputSignature : Tag := ⟨0x49, 0x53, 0x47, 0x31⟩

/-- Output registers, `OSG1`. -/
def outputSignature : Tag := ⟨0x4F, 0x53, 0x47, 0x31⟩

/-- Patch constant registers, `PSG1`. -/
def patchConstantSignature : Tag := ⟨0x50, 0x53, 0x47, 0x31⟩

/-- Pipeline facts, `PSV0`. -/
def runtimeInfo : Tag := ⟨0x50, 0x53, 0x56, 0x30⟩

/-- The program, `DXIL`. -/
def program : Tag := ⟨0x44, 0x58, 0x49, 0x4C⟩

/-- The program with debug information, `ILDB`. -/
def debugProgram : Tag := ⟨0x49, 0x4C, 0x44, 0x42⟩

def toBytes (t : Tag) : Bytes := [t.b0, t.b1, t.b2, t.b3]

/-- The tag at the front of a byte string. -/
def ofBytes (b : Bytes) : Tag := ⟨b.u8At 0, b.u8At 1, b.u8At 2, b.u8At 3⟩

def toWord (t : Tag) : UInt32 := Bytes.u32At t.toBytes 0

def ofWord (w : UInt32) : Tag := ofBytes (Bytes.ofUInt32 w)

/-- Blank or a visible ASCII character. -/
def isPrintable (x : UInt8) : Bool := 0x20 ≤ x.toNat && x.toNat ≤ 0x7E

def text (t : Tag) : String :=
  if t.toBytes.all isPrintable then
    String.ofList (t.toBytes.map fun x => Char.ofNat x.toNat)
  else "0x" ++ Text.hexBytes t.toBytes

end Tag

def Cursor.tag (c : Cursor) : Except ReadError (Tag × Cursor) :=
  (c.read 4).map fun (b, c) => (Tag.ofBytes b, c)

end ShaderReport
