/-
# The listing of a module

A module as assembly text: a head, the named structs, the globals, the functions
that are defined, those that are only declared, and the metadata.

Remarks can be added while a listing is written, in front of a function and at
the end of an instruction's line.  They say nothing by default.
-/
import ShaderReport.Module.Basic
import ShaderReport.Number
import ShaderReport.Types.Extent
import ShaderReport.Types.Text

namespace ShaderReport

/-- Text to add to a listing. -/
structure Remarks where
  /-- Written in front of a function. -/
  beforeFunction : Module → Function → String := fun _ _ => ""
  /-- Written behind an instruction, on its line. -/
  afterInstruction : Module → Instruction → String := fun _ _ => ""

def Remarks.none : Remarks := {}

namespace Module

/-- The target every module states. -/
def targetTriple : String := "dxil-ms-dx"

/-! ## Operands and instructions -/

/-- An integer constant in the form its type asks for. -/
def integerText (m : Module) (type : TypeId) (word : UInt64) : String :=
  let bits := match m.types.shape? type with
    | some (.integer bits) => bits.toNat
    | _ => 64
  if bits = 1 then (if word.toNat % 2 = 1 then "true" else "false")
  else toString (Number.signed word bits)

/-- An operand without its type. -/
def valueText (m : Module) : Value → String
  | .integer type word => m.integerText type word
  | .float _ bits => Number.doubleText bits
  | .undef _ => "undef"
  | .temporary _ name => "%" ++ name
  | .global id => match m.global? id with
    | some g => "@" ++ g.name
    | none => "@<invalid global>"
  | .function id => match m.function? id with
    | some f => "@" ++ f.name
    | none => "@<invalid function>"

/-- An operand behind its type. -/
def typedValueText (m : Module) (v : Value) : String :=
  let type := match m.valueType? v with
    | some type => m.types.text type
    | none => "<badref>"
  type ++ " " ++ m.valueText v

/-- The result type and the name of what is called. -/
def calleeText (m : Module) (callee : FunctionId) : String :=
  match m.function? callee with
  | some f =>
    let result := match m.types.shape? f.type with
      | some (.function result _) => m.types.text result
      | _ => "void"
    result ++ " @" ++ f.name
  | none => "void @<invalid function #" ++ callee.repr ++ ">"

def actionText (m : Module) : Action → String
  | .call callee arguments =>
    "call " ++ m.calleeText callee ++ "(" ++
      Text.commaSeparated (arguments.map m.typedValueText) ++ ")"
  | .ret none => "ret void"
  | .ret (some v) => "ret " ++ m.typedValueText v
  | .verbatim text => text

/-- An instruction with the name it defines. -/
def instructionText (m : Module) (i : Instruction) : String :=
  let result := match i.result with
    | some name => "%" ++ name ++ " = "
    | none => ""
  result ++ m.actionText i.action

/-! ## Functions -/

def instructionLine (m : Module) (remarks : Remarks) (i : Instruction) : String :=
  "  " ++ m.instructionText i ++ remarks.afterInstruction m i ++ "\n"

/-- A label and the lines behind it. -/
def blockText (m : Module) (remarks : Remarks) (b : Block) : String :=
  b.label ++ ":\n" ++ String.join (b.instructions.map (m.instructionLine remarks))

/-- Blocks with an empty line between neighbours. -/
def blocksText (m : Module) (remarks : Remarks) : List Block → String
  | [] => ""
  | [b] => m.blockText remarks b
  | b :: rest => m.blockText remarks b ++ "\n" ++ blocksText m remarks rest

def functionText (m : Module) (remarks : Remarks) (f : Function) : String :=
  remarks.beforeFunction m f ++
    match m.types.shape? f.type with
    | some (.function result parameters) =>
      let types := parameters.map m.types.text
      let head := m.types.text result ++ " @" ++ f.name ++ "("
      if f.isDeclaration then "declare " ++ head ++ Text.commaSeparated types ++ ")\n"
      else
        let named := types.zipIdx.map fun (type, place) => type ++ " %" ++ place.repr
        "define " ++ head ++ Text.commaSeparated named ++ ") \x7b\n" ++
          m.blocksText remarks f.blocks ++ "\x7d\n"
    | _ => "; @" ++ f.name ++ " has non-function type\n"

/-! ## Everything else -/

/-- Name, undecoded bitcode and target. -/
def headText (m : Module) : String :=
  let undecoded := match m.undecoded with
    | some u =>
      ["; " ++ u.length.repr ++ " bytes of undecoded bitcode" ++
        (if u.wrapped then " (wrapped)" else "")]
    | none => []
  Text.lines (["; ModuleID = '" ++ m.name ++ "'"] ++ undecoded ++
    ["target datalayout = \"" ++ dataLayoutText ++ "\"",
     "target triple = \"" ++ targetTriple ++ "\""])

def structText (m : Module) (id : TypeId) : String :=
  let fields := (m.types.structFields id).map m.types.text
  m.types.text id ++ " = type \x7b" ++
    (if fields.isEmpty then "\x7d" else " " ++ Text.commaSeparated fields ++ " \x7d")

def globalText (m : Module) (g : Global) : String :=
  "@" ++ g.name ++ " = external " ++ (if g.constant then "constant" else "global") ++ " " ++
    m.types.text g.valueType

/-- An empty line and the given text, or nothing if there is no text to give. -/
def paragraph (items : List String) : String :=
  if items.isEmpty then "" else "\n" ++ String.join items

/-- The head of each metadata name, whose nodes are numbered from `first` on. -/
def metadataHeads : (first : Nat) → List NamedMetadata → List String
  | _, [] => []
  | first, md :: rest =>
    let references := (List.range md.operands.length).map fun i => "!" ++ (first + i).repr
    ("!" ++ md.name ++ " = !\x7b" ++ Text.commaSeparated references ++ "\x7d") ::
      metadataHeads (first + md.operands.length) rest

/-- All nodes, numbered through. -/
def metadataNodes (metadata : List NamedMetadata) : List String :=
  (metadata.flatMap (·.operands)).zipIdx.map fun (text, i) => "!" ++ i.repr ++ " = " ++ text

def metadataText (m : Module) : String :=
  if m.metadata.isEmpty then ""
  else "\n" ++ Text.lines (metadataHeads 0 m.metadata) ++
    "\n" ++ Text.lines (metadataNodes m.metadata)

def listing (m : Module) (remarks : Remarks) : String :=
  m.headText ++
    paragraph (m.types.namedStructs.map fun id => m.structText id ++ "\n") ++
    paragraph (m.globals.map fun g => m.globalText g ++ "\n") ++
    String.join ((m.functions.filter (!·.isDeclaration)).map fun f =>
      "\n" ++ m.functionText remarks f) ++
    paragraph ((m.functions.filter (·.isDeclaration)).map (m.functionText remarks)) ++
    m.metadataText

/-- The whole module, without remarks. -/
def text (m : Module) : String := m.listing .none

end Module

end ShaderReport
