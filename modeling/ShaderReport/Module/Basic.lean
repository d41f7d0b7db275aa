/-
# `Module` — what a program consists of

Types, globals, functions and named metadata, together with what is known of the
shader: its signatures, its resources and the layout facts.

Functions are unique by name and globals are not.  A symbol is a place in its
list; nothing ever moves, so a place keeps denoting the same symbol.
-/
import ShaderReport.Layout.Facts
import ShaderReport.Resource
import ShaderReport.Semantic

namespace ShaderReport

/-- A function's place in the module. -/
abbrev FunctionId := Nat

abbrev GlobalId := Nat

/-- An operand. -/
inductive Value where
  /-- An integer constant, filled with zeros to 64 bits. -/
  | integer (type : TypeId) (word : UInt64)
  /-- A floating-point constant, by the bits of the double. -/
  | float (type : TypeId) (bits : UInt64)
  | undef (type : TypeId)
  /-- A value that an instruction of the function defines. -/
  | temporary (type : TypeId) (name : String)
  | global (id : GlobalId)
  | function (id : FunctionId)
deriving DecidableEq, Inhabited

/-- The word of an integer constant. -/
def Value.constant? : Value → Option UInt64
  | .integer _ word => some word
  | _ => none

inductive Action where
  | call (callee : FunctionId) (arguments : List Value)
  | ret (value : Option Value)
  /-- Anything else, as text. -/
  | verbatim (text : String)
deriving DecidableEq, Inhabited

/-- An action and the name of the value it defines, if it defines one. -/
structure Instruction where
  result : Option String
  action : Action
deriving DecidableEq, Inhabited

/-- A labelled run of instructions. -/
structure Block where
  label : String
  instructions : List Instruction
deriving DecidableEq, Inhabited

/-- A function; one without blocks is only declared. -/
structure Function where
  name : String
  type : TypeId
  blocks : List Block := []
deriving DecidableEq, Inhabited

namespace Function

def isDeclaration (f : Function) : Bool := f.blocks.isEmpty

def instructions (f : Function) : List Instruction := f.blocks.flatMap (·.instructions)

end Function

structure Global where
  name : String
  /-- The type of what is stored. -/
  valueType : TypeId
  /-- The type of the symbol, a pointer to what is stored. -/
  symbolType : TypeId
  constant : Bool
deriving DecidableEq, Inhabited

/-- A metadata name and the text of its nodes. -/
structure NamedMetadata where
  name : String
  operands : List String
deriving DecidableEq, Inhabited

/-- Bitcode that was accepted and not decoded. -/
structure UndecodedBitcode where
  length : Nat
  wrapped : Bool
deriving DecidableEq, Inhabited

/-- What is known of a module as a shader. -/
structure Shader where
  inputs : List SemanticElement := []
  outputs : List SemanticElement := []
  patchConstants : List SemanticElement := []
  constantBuffers : List ConstantBuffer := []
  samplers : List Binding := []
  srvs : List View := []
  uavs : List View := []
  facts : LayoutFacts := {}
deriving DecidableEq, Inhabited

structure Module where
  name : String := ""
  types : TypeTable := {}
  globals : List Global := []
  functions : List Function := []
  metadata : List NamedMetadata := []
  undecoded : Option UndecodedBitcode := none
  shader : Shader := {}
deriving DecidableEq, Inhabited

namespace Module

def intern (m : Module) (s : Shape) : TypeId × Module :=
  let (id, types) := m.types.intern s
  (id, { m with types })

/-- Adds a global; a pointer to its type is interned for the symbol. -/
def addGlobal (m : Module) (name : String) (valueType : TypeId) (constant : Bool) :
    GlobalId × Module :=
  let (symbolType, m) := m.intern (.pointer valueType 0)
  (m.globals.length,
    { m with globals := m.globals ++ [{ name, valueType, symbolType, constant }] })

def functionByName? (m : Module) (name : String) : Option FunctionId :=
  m.functions.findIdx? (·.name == name)

/-- The first global of a given name. -/
def globalByName? (m : Module) (name : String) : Option GlobalId :=
  m.globals.findIdx? (·.name == name)

/-- Declares a function; a name that is taken keeps its first declaration. -/
def declareFunction (m : Module) (name : String) (type : TypeId) : FunctionId × Module :=
  match m.functionByName? name with
  | some id => (id, m)
  | none => (m.functions.length, { m with functions := m.functions ++ [{ name, type }] })

/-- Appends a block to a function; a place outside the module changes nothing. -/
def appendBlock (m : Module) (id : FunctionId) (block : Block) : Module :=
  { m with functions := m.functions.modify id fun f => { f with blocks := f.blocks ++ [block] } }

def addMetadata (m : Module) (name : String) (operands : List String) : Module :=
  { m with metadata := m.metadata ++ [{ name, operands }] }

def function? (m : Module) (id : FunctionId) : Option Function := m.functions[id]?

def global? (m : Module) (id : GlobalId) : Option Global := m.globals[id]?

def metadata? (m : Module) (name : String) : Option NamedMetadata :=
  m.metadata.find? (·.name == name)

/-- The metadata that marks a module as a shader. -/
def versionMetadata : String := "dx.version"

def isShader (m : Module) : Bool := (m.metadata? versionMetadata).isSome

/-- The type of an operand.  A function's is the pointer to its type, which is there
only if something asked for it. -/
def valueType? (m : Module) : Value → Option TypeId
  | .integer type _ | .float type _ | .undef type | .temporary type _ => some type
  | .global id => (m.global? id).map (·.symbolType)
  | .function id => (m.function? id).bind fun f => m.types.find? (.pointer f.type 0)

end Module

end ShaderReport
