/-
# `Program` — the header in front of bitcode

A program is six words and the bitcode they point at: version word, declared
size in words, magic, format version, bitcode offset, bitcode size.  The bitcode
offset counts from the magic, not from the front.
-/
import ShaderReport.Program.Version
import ShaderReport.Bytes.LittleEndian

namespace ShaderReport

/-- A program whose header passed every check. -/
structure Program where
  version : Program.Version
  /-- Declared size in 32-bit words. -/
  sizeInWords : UInt32
  /-- Format version: major number in bits 8 to 15. -/
  formatVersion : UInt32
  /-- Where the bitcode starts, counted from the magic. -/
  bitcodeOffset : UInt32
  bitcode : Bytes
  stage : Stage
deriving DecidableEq

inductive ProgramFault where
  | tooShort (length : Nat)
  | sizeBeyondInput (declared available : Nat)
  | badMagic (found : UInt32)
  | unknownStage (code : Nat)
  | unsupportedModel (major minor : Nat)
  | unsupportedFormat (version : UInt32)
  | emptyBitcode
  | bitcodeRange (cause : ReadError)
deriving DecidableEq

namespace Program

def headerLength : Nat := 24

/-- Where the magic stands, from which the bitcode offset counts. -/
def bitcodeBase : Nat := 8

/-- The word `DXIL`. -/
def magic : UInt32 := 0x4C495844

/-- The one shader model major number there is. -/
def modelMajor : Nat := 6

/-- The one format major number there is. -/
def formatMajor : Nat := 1

end Program

def ProgramFault.message : ProgramFault → String
  | .tooShort length => s!"need at least {Program.headerLength} bytes, got {length}"
  | .sizeBeyondInput declared available =>
    s!"declared program size {declared} exceeds part length {available}"
  | .badMagic found => s!"bad bitcode magic 0x{Text.hexFixed 8 found.toNat}"
  | .unknownStage code => s!"unknown shader kind {code}"
  | .unsupportedModel major minor => s!"unsupported shader model {major}.{minor}"
  | .unsupportedFormat version => s!"unsupported DXIL version 0x{Text.hex version.toNat}"
  | .emptyBitcode => "bitcode is empty"
  | .bitcodeRange cause => s!"bitcode range does not fit in the part: {cause.message}"

namespace Program

def parse (b : Bytes) : Except ProgramFault Program :=
  if b.length < headerLength then .error (.tooShort b.length)
  else
    let version : Version := ⟨b.u32At 0⟩
    let sizeInWords := b.u32At 4
    let formatVersion := b.u32At 12
    let bitcodeOffset := b.u32At 16
    let bitcodeSize := b.u32At 20
    if b.length < 4 * sizeInWords.toNat then
      .error (.sizeBeyondInput (4 * sizeInWords.toNat) b.length)
    else if b.u32At 8 ≠ magic then .error (.badMagic (b.u32At 8))
    else
      match version.stage? with
      | none => .error (.unknownStage version.stageCode)
      | some stage =>
        if version.major ≠ modelMajor then
          .error (.unsupportedModel version.major version.minor)
        else if formatVersion.toNat / 256 % 256 ≠ formatMajor then
          .error (.unsupportedFormat formatVersion)
        else if bitcodeSize = 0 then .error .emptyBitcode
        else
          match Bytes.slice (b.drop bitcodeBase) bitcodeOffset.toNat bitcodeSize.toNat with
          | .error cause => .error (.bitcodeRange cause)
          | .ok bitcode =>
            .ok ⟨version, sizeInWords, formatVersion, bitcodeOffset, bitcode, stage⟩

/-- Bytes that fill a length up to whole words. -/
def wordPadding (length : Nat) : Bytes := List.replicate ((4 - length % 4) % 4) 0

/-- A shader model 6.0 program around bitcode, filled up to whole words. -/
def build (stage : Stage) (bitcode : Bytes) : Bytes :=
  let padding := wordPadding bitcode.length
  Bytes.ofUInt32 (Version.pack stage 6 0).raw ++
    Bytes.ofNatLE 4 ((headerLength + bitcode.length + padding.length) / 4) ++
    Bytes.ofUInt32 magic ++
    Bytes.ofUInt32 0x100 ++
    Bytes.ofNatLE 4 (headerLength - bitcodeBase) ++
    Bytes.ofNatLE 4 bitcode.length ++
    bitcode ++ padding

end Program

end ShaderReport
