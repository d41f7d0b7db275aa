/-
# `Disassembly` — from bytes to a report and a listing

The input is a container, a program on its own, or bare bitcode.  A container
contributes sections for its parts; the module loaded from the bitcode
contributes tables, if it says that it is a shader, and its listing.

A part that does not decode is left out.  Only four things are fatal: a broken
container, a container without a program, a broken program inside a container,
and bitcode the loader refuses.
-/
import ShaderReport.Bitcode
import ShaderReport.Malformed
import ShaderReport.Operation
import ShaderReport.Report.Basic
import ShaderReport.Report.Bindings
import ShaderReport.Report.Buffers
import ShaderReport.Report.RuntimeInfo
import ShaderReport.Report.Signatures

namespace ShaderReport

/-- What the reader can choose. -/
structure Options where
  /-- The character that begins every report line. -/
  marker : Char := ';'
  /-- Whether the program with debug information is taken where there are two. -/
  preferDebug : Bool := true
deriving DecidableEq, Inhabited

inductive DisassemblyError where
  | malformed (cause : Malformed)
  | missingPart (tag : Tag)
  | load (cause : LoadError)
deriving DecidableEq

def DisassemblyError.message : DisassemblyError → String
  | .malformed cause => cause.message
  | .missingPart tag => "container has no " ++ tag.text ++ " part"
  | .load cause => "failed to load bitcode: " ++ cause.message

namespace Container

/-- The lines made from the first part of a given name, if it is there and decodes. -/
def partLines {ε α : Type} (c : Container) (tag : Tag) (decode : Bytes → Except ε α)
    (lines : α → List String) : List String :=
  match c.payload? tag with
  | none => []
  | some payload =>
    match decode payload with
    | .ok content => lines content
    | .error _ => []

def featureLines (c : Container) : List String :=
  c.partLines .featureInfo FeatureInfo.parse FeatureInfo.lines

def signatureLines (c : Container) (tag : Tag) (title : String) (direction : Direction) :
    List String :=
  c.partLines tag RegisterSignature.parse (·.lines title direction)

def runtimeInfoLines (c : Container) (stage : Stage) : List String :=
  c.partLines .runtimeInfo (RuntimeInfo.parse · stage) RuntimeInfo.lines

/-- The program to load.  A container must hold one without debug information, even if
the other is preferred. -/
def program (c : Container) (preferDebug : Bool) : Except DisassemblyError Program :=
  match c.payload? .program with
  | none => .error (.missingPart .program)
  | some plain =>
    let payload := if preferDebug then (c.payload? .debugProgram).getD plain else plain
    match Program.parse payload with
    | .error fault => .error (.malformed (.program fault))
    | .ok program => .ok program

/-- The sections of a container whose program is for the given stage. -/
def lines (c : Container) (stage : Stage) : List String :=
  c.featureLines ++
    c.signatureLines .inputSignature "Input" .input ++
    c.signatureLines .outputSignature "Output" .output ++
    c.signatureLines .patchConstantSignature "Patch Constant" .output ++
    c.runtimeInfoLines stage

end Container

/-- The tables of a module that is a shader. -/
def Module.tableLines (m : Module) (marker : Char) : List String :=
  SemanticElement.lines m.shader.inputs "Input" ++
    SemanticElement.lines m.shader.outputs "Output" ++
    SemanticElement.lines m.shader.patchConstants "Patch Constant" ++
    m.bufferLines marker ++
    m.bindingLines

/-- What an input contributes before its bitcode is loaded: section lines, and the
bitcode. -/
structure Source where
  lines : List String
  bitcode : Bytes
deriving DecidableEq

/-- Tells the three forms of input apart. -/
def Source.ofInput (preferDebug : Bool) (input : Bytes) : Except DisassemblyError Source :=
  match Container.parse? input with
  | .error fault => .error (.malformed (.container fault))
  | .ok (some c) =>
    match c.program preferDebug with
    | .error e => .error e
    | .ok program => .ok ⟨c.lines program.stage, program.bitcode⟩
  | .ok none =>
    match Program.parse input with
    | .ok program => .ok ⟨[], program.bitcode⟩
    | .error _ => .ok ⟨[], input⟩

/-- The report on a source and the module loaded from it, and the listing. -/
def render (marker : Char) (source : Source) (m : Module) : String :=
  let report : Report := { marker }
  let report := report.lines source.lines
  let report := if m.isShader then report.lines (m.tableLines marker) else report
  (report.append (m.listing Operation.remarks)).text

def disassemble (options : Options) (loader : Loader) (input : Bytes) :
    Except DisassemblyError String :=
  match Source.ofInput options.preferDebug input with
  | .error e => .error e
  | .ok source =>
    match loader source.bitcode "" with
    | .error cause => .error (.load cause)
    | .ok m => .ok (render options.marker source m)

end ShaderReport
