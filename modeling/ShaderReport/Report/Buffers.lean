/-
# The section on buffer contents

For every buffer whose contents have a declared layout: constant buffers,
structured buffers and texture buffers.
-/
import ShaderReport.Layout.Block
import ShaderReport.Module.Basic

namespace ShaderReport.Module

def bufferPlacement : Placement := { offset := 0, indent := 3, width := 50 }

/-- The struct that describes a resource: the type of its global, or the element of
that type if the resource is an array. -/
def layoutStruct? (m : Module) (b : Binding) : Option TypeId := do
  let g ← b.symbol.bind m.global?
  let type := (m.types.arrayElement? g.valueType).getD g.valueType
  if m.types.isStruct type then some type else none

/-- The describing struct and its facts, if they can be used. -/
def describedLayout? (m : Module) (b : Binding) : Option (TypeId × StructFacts) := do
  let type ← m.layoutStruct? b
  let known ← Layout.usableFacts? m.types m.shader.facts type
  return (type, known)

/-- A titled block. -/
def bufferBlock (title : String) (body : List String) : List String :=
  [title, " \x7b", ""] ++ body ++ [" \x7d", ""]

def structLines (m : Module) (marker : Char) (type : TypeId) (label : String) (size : Nat) :
    List String :=
  (Layout.block m.types m.shader.facts type label bufferPlacement size).map (·.text marker)

def placeholderLine (marker : Char) (size : Nat) : String :=
  (LayoutLine.placeholder bufferPlacement.indent size).text marker

/-- A constant buffer, with its declared size. -/
def constantBufferLines (m : Module) (marker : Char) (b : ConstantBuffer) : List String :=
  bufferBlock (" cbuffer " ++ b.binding.name) <|
    match m.describedLayout? b.binding with
    | some (type, _) => m.structLines marker type b.binding.name b.size.toNat
    | none => ["   " ++ LayoutLine.untyped b.size.toNat, ""]

/-- A texture buffer, with the size its facts state. -/
def textureBufferLines (m : Module) (marker : Char) (v : View) : List String :=
  bufferBlock (" tbuffer " ++ v.binding.name) <|
    match m.describedLayout? v.binding with
    | some (type, known) => m.structLines marker type v.binding.name known.size.toNat
    | none => ["   " ++ LayoutLine.factsAbsent, ""]

/-- The element of a structured buffer that is a struct. -/
def structElementLines (m : Module) (marker : Char) (type : TypeId) : List String :=
  let size := m.types.allocSize type
  match Layout.usableFacts? m.types m.shader.facts type with
  | some _ => m.structLines marker type "$Element;" size
  | none => [placeholderLine marker size]

/-- The element of a structured buffer that is no struct.  It stands inside a struct
made for it, whose one field says what is known of it. -/
def plainElementLines (m : Module) (marker : Char) (v : View) : List String :=
  match m.layoutStruct? v.binding with
  | none => [placeholderLine marker 0, ""]
  | some wrapper =>
    let size := m.types.allocSize wrapper
    let field? := (Layout.usableFacts? m.types m.shader.facts wrapper).bind (·.fields[0]?)
    match field?, v.elementType with
    | some field, some type =>
      (Layout.field m.types m.shader.facts type { field with name := "$Element" }
        bufferPlacement size).map (·.text marker) ++ [""]
    | _, _ => [placeholderLine marker size, ""]

def structuredBufferLines (m : Module) (marker : Char) (v : View) : List String :=
  bufferBlock (" Resource bind info for " ++ v.binding.name) <|
    match v.elementType.filter fun type => m.types.isStruct type && !m.types.isMatrix type with
    | some type => m.structElementLines marker type
    | none => m.plainElementLines marker v

/-- A read-only view, if it has a layout to show. -/
def srvLines (m : Module) (marker : Char) (v : View) : List String :=
  if v.isStructuredBuffer then m.structuredBufferLines marker v
  else if v.isTextureBuffer then m.textureBufferLines marker v
  else []

/-- A writable view, if it has a layout to show. -/
def uavLines (m : Module) (marker : Char) (v : View) : List String :=
  if v.isStructuredBuffer then m.structuredBufferLines marker v else []

def bufferLines (m : Module) (marker : Char) : List String :=
  ["", " Buffer Definitions:", ""] ++
    m.shader.constantBuffers.flatMap (m.constantBufferLines marker) ++
    m.shader.srvs.flatMap (m.srvLines marker) ++
    m.shader.uavs.flatMap (m.uavLines marker)

end ShaderReport.Module
