/-
# Sections written into a report

Each section is defined as a list of lines.  Here it is written line after line into a
report that may hold anything: a writer takes the report and hands it on, loops carry it
from one element to the next, and the layout of a struct carries it down into the
structs inside and up again.

A writer could look at what is there, or change it.  These do not: every one of them
appends lines that depend on the marker alone, and they are the lines of the section
(the lemmas `..._eq`).  So each of them only appends (`AppendsOnly`): what it adds to a
report is what it writes into an empty one.
-/
import ShaderReport.Proofs.Disassembly.Sections

namespace ShaderReport

/-! ## Writers -/

namespace Report

/-- What a writer adds to a report is what it writes into an empty one with the same
marker, and it leaves all else as it is. -/
def AppendsOnly (w : Report → Report) : Prop :=
  ∀ r, w r = r.append (w { marker := r.marker }).text

theorem appendsOnly_of_append {w : Report → Report} {text : Char → String}
    (h : ∀ r, w r = r.append (text r.marker)) : AppendsOnly w := by
  intro r
  have fresh : (w { marker := r.marker }).text = text r.marker := by
    rw [h]
    exact String.empty_append
  rw [fresh, h r]

theorem appendsOnly_of_lines {w : Report → Report} {ls : Char → List String}
    (h : ∀ r, w r = r.lines (ls r.marker)) : AppendsOnly w :=
  @appendsOnly_of_append w (fun marker => marked marker (ls marker)) h

theorem marked_append (marker : Char) (xs ys : List String) :
    marked marker (xs ++ ys) = marked marker xs ++ marked marker ys := by
  simp [marked]

@[simp] theorem marker_lines (r : Report) (ls : List String) : (r.lines ls).marker = r.marker := rfl

/-- A loop whose every round writes lines writes the lines of all rounds. -/
theorem foldl_lines {α : Type} {w : Report → α → Report} {ls : Char → α → List String}
    (xs : List α) (h : ∀ r, ∀ x ∈ xs, w r x = r.lines (ls r.marker x)) (r : Report) :
    xs.foldl w r = r.lines (xs.flatMap (ls r.marker)) := by
  induction xs generalizing r with
  | nil => exact (lines_nil r).symm
  | cons x xs ih =>
      have rest := ih fun r x member => h r x (List.mem_cons_of_mem _ member)
      rw [List.foldl_cons, h r x List.mem_cons_self, rest, lines_lines, marker_lines,
        List.flatMap_cons]

/-- A loop that writes one line in every round. -/
@[simp] theorem foldl_line {α : Type} (line : α → String) (xs : List α) (r : Report) :
    xs.foldl (fun r x => r.lines [line x]) r = r.lines (xs.map line) := by
  have rounds := @foldl_lines α (fun r x => r.lines [line x]) (fun _ x => [line x]) xs
    (fun _ _ _ => rfl) r
  rwa [← List.map_eq_flatMap] at rounds

end Report

/-! ## Parts of a container -/

/-- Writes the section on features. -/
def FeatureInfo.write (info : FeatureInfo) (r : Report) : Report :=
  if info.raw = 0 then r
  else
    let r := r.blank.line " Note: shader requires additional functionality:"
    let r := info.features.foldl (fun r f => r.line ("       " ++ f.description)) r
    r.blank

theorem FeatureInfo.write_eq (info : FeatureInfo) (r : Report) :
    info.write r = r.lines info.lines := by
  unfold write lines
  split
  next => exact (Report.lines_nil r).symm
  next => simp [Report.blank, Report.line]

/-- Writes how every signature table begins. -/
def Report.signatureHead (r : Report) (title names rule : String) : Report :=
  ((r.blank.line (" " ++ title ++ " signature:")).blank.line names).line rule

/-- Writes the table of a register signature. -/
def RegisterSignature.write (s : RegisterSignature) (title : String) (direction : Direction)
    (r : Report) : Report :=
  let r := r.signatureHead title
    " Name                 Index   Mask Register SysValue  Format   Used"
    " -------------------- ----- ------ -------- -------- ------- ------"
  if s.elements.isEmpty then r.line " no parameters"
  else
    let hasStreams := s.hasStreams
    let r := s.elements.foldl (fun r e => r.line (e.row hasStreams direction)) r
    r.blank

theorem RegisterSignature.write_eq (s : RegisterSignature) (title : String)
    (direction : Direction) (r : Report) :
    s.write title direction r = r.lines (s.lines title direction) := by
  unfold write lines rows
  split
  next => simp [Report.signatureHead, Report.blank, Report.line, signatureTitle]
  next => simp [Report.signatureHead, Report.blank, Report.line, signatureTitle]

/-- Writes the section on pipeline facts. -/
def RuntimeInfo.write (info : RuntimeInfo) (r : Report) : Report :=
  let r := (r.blank.line " Pipeline Runtime Information:").blank
  (r.write info.factLines).blank

theorem RuntimeInfo.write_eq (info : RuntimeInfo) (r : Report) :
    info.write r = r.lines info.lines := by
  simp [write, lines, Report.write_eq, Report.blank, Report.line]

/-! ## Tables of a module -/

/-- Writes the table of a module's signature. -/
def SemanticElement.write (elements : List SemanticElement) (title : String) (r : Report) :
    Report :=
  if elements.isEmpty then r
  else
    let r := r.signatureHead title
      " Name                 Index             InterpMode"
      " -------------------- ----- ----------------------"
    elements.foldl (fun r e => r.line e.row) r

theorem SemanticElement.write_eq (elements : List SemanticElement) (title : String) (r : Report) :
    write elements title r = r.lines (lines elements title) := by
  unfold write lines
  split
  next => exact (Report.lines_nil r).symm
  next => simp [Report.signatureHead, Report.blank, Report.line, signatureTitle]

/-- Writes the table of bindings. -/
def Module.writeBindings (m : Module) (r : Report) : Report :=
  let r := ((((r.blank.line " Resource Bindings:").blank).line
    " Name                                 Type  Format         Dim      ID      HLSL Bind  Count").line
    " ------------------------------ ---------- ------- ----------- ------- -------------- ------")
  let r := m.shader.constantBuffers.foldl (fun r b => r.line (b.binding.row none)) r
  let r := m.shader.samplers.foldl (fun r b => r.line (b.row none)) r
  let r := m.shader.srvs.foldl (fun r v => r.line v.row) r
  let r := m.shader.uavs.foldl (fun r v => r.line v.row) r
  r.blank

theorem Module.writeBindings_eq (m : Module) (r : Report) :
    m.writeBindings r = r.lines m.bindingLines := by
  simp [writeBindings, bindingLines, Report.blank, Report.line]

/-! ## Layouts -/

namespace Layout

/-- Writes a line of a layout. -/
def writeLine (l : LayoutLine) (r : Report) : Report := r.line (l.text r.marker)

/-- How to write a struct under a given label. -/
def BlockWriter : Type := (label : String) → Placement → (size : Nat) → Report → Report

/-- Where there is no struct, nothing is written. -/
instance : Inhabited BlockWriter := ⟨fun _ _ _ r => r⟩

/-- Writes a field, given how structs are written. -/
def writeFieldWith (t : TypeTable) (block : TypeId → BlockWriter) (type : TypeId)
    (field : FieldFacts) (place : Placement) (size : Nat) (r : Report) : Report :=
  let place := place.advance field.offset
  match formOf t type field with
  | .block struct count => block struct (field.name ++ arraySuffix count ++ ";") place 0 r
  | .leaf count =>
    writeLine (.leaf place.indent place.width (declaration t type field count) place.offset size) r

/-- Writes a struct, given how the structs inside it are written. -/
def writeBlockWith (t : TypeTable) (facts : LayoutFacts) (block : TypeId → BlockWriter)
    (type : TypeId) : BlockWriter := fun label place size r =>
  match usableFacts? t facts type with
  | none => writeLine (.placeholder place.indent (t.allocSize type)) r
  | some known =>
    let r := writeLine (.opening place.indent ((t.structName? type).getD "")) r
    let r := (writeLine (.brace place.indent) r).blank
    let r := ((t.structFields type).zip known.fields).foldl
      (fun r (type, field) => writeFieldWith t block type field place.inner 0 r) r
    let r := writeLine (.gap place.indent) r
    (writeLine (.closing place.indent place.width label place.offset size) r).blank

/-- Writes the struct at a place of the table. -/
def writeBlock (t : TypeTable) (facts : LayoutFacts) : TypeId → BlockWriter :=
  t.fold fun type _ below => writeBlockWith t facts below type

/-- Writes a field of the given type. -/
def writeField (t : TypeTable) (facts : LayoutFacts) (type : TypeId) (field : FieldFacts)
    (place : Placement) (size : Nat) (r : Report) : Report :=
  writeFieldWith t (writeBlock t facts) type field place size r

/-- A writer of structs writes the lines that a printer gives. -/
def Agree (writer : BlockWriter) (printer : BlockPrinter) : Prop :=
  ∀ label place size r, writer label place size r =
    r.lines ((printer label place size).map (·.text r.marker))

section Agree

variable {t : TypeTable} {facts : LayoutFacts} {writer : TypeId → BlockWriter}
  {printer : TypeId → BlockPrinter} (h : ∀ s, Agree (writer s) (printer s))
include h

theorem writeFieldWith_eq (type : TypeId) (field : FieldFacts) (place : Placement) (size : Nat)
    (r : Report) : writeFieldWith t writer type field place size r =
      r.lines ((fieldWith t printer type field place size).map (·.text r.marker)) := by
  unfold writeFieldWith fieldWith
  cases formOf t type field with
  | leaf count => rfl
  | block s count => exact h s _ _ _ r

theorem agree_blockWith (type : TypeId) :
    Agree (writeBlockWith t facts writer type) (blockWith t facts printer type) := by
  intro label place size r
  unfold writeBlockWith blockWith
  cases usableFacts? t facts type with
  | none => rfl
  | some known =>
      have fields := @Report.foldl_lines (TypeId × FieldFacts)
        (fun r x => writeFieldWith t writer x.1 x.2 place.inner 0 r)
        (fun marker x => (fieldWith t printer x.1 x.2 place.inner 0).map
          fun l : LayoutLine => l.text marker)
        ((t.structFields type).zip known.fields)
        (fun r x _ => writeFieldWith_eq h x.1 x.2 place.inner 0 r)
      simp [fields, writeLine, Report.blank, Report.line, List.map_flatMap, LayoutLine.text]

end Agree

/-- The report that is carried down and up again ends with the lines of the struct. -/
theorem agree_block (t : TypeTable) (facts : LayoutFacts) (id : TypeId) :
    Agree (writeBlock t facts id) (block t facts id) := by
  induction id using Nat.strongRecOn with
  | ind id ih =>
    have nothing : Agree default default := fun _ _ _ r => (Report.lines_nil r).symm
    rcases Nat.lt_or_ge id t.size with inTable | outside
    · have hs : t.shape? id = some t.shapes[id] := List.getElem?_eq_getElem inTable
      rw [writeBlock, block, TypeTable.fold_eq _ _ hs, TypeTable.fold_eq _ _ hs]
      refine agree_blockWith ?_ id
      -- below a struct, both recursions know the older ones and nothing of the others
      intro c
      by_cases older : c < id
      · rw [if_pos older, if_pos older]
        exact ih c older
      · rw [if_neg older, if_neg older]
        exact nothing
    · rw [writeBlock, block, TypeTable.fold_of_size_le _ _ outside,
        TypeTable.fold_of_size_le _ _ outside]
      exact nothing

theorem writeField_eq (t : TypeTable) (facts : LayoutFacts) (type : TypeId) (field : FieldFacts)
    (place : Placement) (size : Nat) (r : Report) :
    writeField t facts type field place size r =
      r.lines ((Layout.field t facts type field place size).map (·.text r.marker)) :=
  writeFieldWith_eq (agree_block t facts) type field place size r

theorem appendsOnly_writeLine (l : LayoutLine) : Report.AppendsOnly (writeLine l) :=
  @Report.appendsOnly_of_lines _ (fun marker => [l.text marker]) fun _ => rfl

theorem appendsOnly_writeBlock (t : TypeTable) (facts : LayoutFacts) (type : TypeId)
    (label : String) (place : Placement) (size : Nat) :
    Report.AppendsOnly (writeBlock t facts type label place size) :=
  @Report.appendsOnly_of_lines _
    (fun marker => (block t facts type label place size).map (LayoutLine.text marker))
    (agree_block t facts type label place size)

theorem appendsOnly_writeField (t : TypeTable) (facts : LayoutFacts) (type : TypeId)
    (field : FieldFacts) (place : Placement) (size : Nat) :
    Report.AppendsOnly (writeField t facts type field place size) :=
  @Report.appendsOnly_of_lines _
    (fun marker => (Layout.field t facts type field place size).map (LayoutLine.text marker))
    (writeField_eq t facts type field place size)

end Layout

/-! ## Buffer contents -/

namespace Module

/-- Writes a titled block around a body. -/
def writeBufferBlock (title : String) (body : Report → Report) (r : Report) : Report :=
  let r := body ((r.line title).line " \x7b").blank
  (r.line " \x7d").blank

theorem writeBufferBlock_eq {title : String} {body : Report → Report} {ls : List String}
    {r : Report} (h : ∀ s : Report, s.marker = r.marker → body s = s.lines ls) :
    writeBufferBlock title body r = r.lines (bufferBlock title ls) := by
  have inside := h ((r.line title).line " \x7b").blank rfl
  rw [writeBufferBlock, inside]
  simp [bufferBlock, Report.blank, Report.line]

/-- Writes the layout of a struct where buffer contents are laid out. -/
def writeStruct (m : Module) (type : TypeId) (label : String) (size : Nat) (r : Report) : Report :=
  Layout.writeBlock m.types m.shader.facts type label bufferPlacement size r

theorem writeStruct_eq (m : Module) (type : TypeId) (label : String) (size : Nat) (r : Report) :
    m.writeStruct type label size r = r.lines (m.structLines r.marker type label size) :=
  Layout.agree_block m.types m.shader.facts type label bufferPlacement size r

/-- Writes a placeholder where buffer contents are laid out. -/
def writePlaceholder (size : Nat) (r : Report) : Report :=
  Layout.writeLine (.placeholder bufferPlacement.indent size) r

/-- Writes a constant buffer. -/
def writeConstantBuffer (m : Module) (b : ConstantBuffer) : Report → Report :=
  writeBufferBlock (" cbuffer " ++ b.binding.name) fun r =>
    match m.describedLayout? b.binding with
    | some (type, _) => m.writeStruct type b.binding.name b.size.toNat r
    | none => (r.line ("   " ++ LayoutLine.untyped b.size.toNat)).blank

theorem writeConstantBuffer_eq (m : Module) (b : ConstantBuffer) (r : Report) :
    m.writeConstantBuffer b r = r.lines (m.constantBufferLines r.marker b) := by
  refine writeBufferBlock_eq ?_
  intro s same
  rw [← same]
  cases m.describedLayout? b.binding with
  | none => exact Report.lines_lines s _ _
  | some described => exact m.writeStruct_eq described.1 _ _ s

/-- Writes a texture buffer. -/
def writeTextureBuffer (m : Module) (v : View) : Report → Report :=
  writeBufferBlock (" tbuffer " ++ v.binding.name) fun r =>
    match m.describedLayout? v.binding with
    | some (type, known) => m.writeStruct type v.binding.name known.size.toNat r
    | none => (r.line ("   " ++ LayoutLine.factsAbsent)).blank

theorem writeTextureBuffer_eq (m : Module) (v : View) (r : Report) :
    m.writeTextureBuffer v r = r.lines (m.textureBufferLines r.marker v) := by
  refine writeBufferBlock_eq ?_
  intro s same
  rw [← same]
  cases m.describedLayout? v.binding with
  | none => exact Report.lines_lines s _ _
  | some described => exact m.writeStruct_eq described.1 _ _ s

/-- Writes the element of a structured buffer that is a struct. -/
def writeStructElement (m : Module) (type : TypeId) (r : Report) : Report :=
  let size := m.types.allocSize type
  match Layout.usableFacts? m.types m.shader.facts type with
  | some _ => m.writeStruct type "$Element;" size r
  | none => writePlaceholder size r

theorem writeStructElement_eq (m : Module) (type : TypeId) (r : Report) :
    m.writeStructElement type r = r.lines (m.structElementLines r.marker type) := by
  unfold writeStructElement structElementLines
  cases Layout.usableFacts? m.types m.shader.facts type with
  | none => rfl
  | some _ => exact m.writeStruct_eq type _ _ r

/-- Writes the element of a structured buffer that is no struct. -/
def writePlainElement (m : Module) (v : View) (r : Report) : Report :=
  let r : Report := match m.layoutStruct? v.binding with
    | none => writePlaceholder 0 r
    | some wrapper =>
      let size := m.types.allocSize wrapper
      let field? := (Layout.usableFacts? m.types m.shader.facts wrapper).bind (·.fields[0]?)
      match field?, v.elementType with
      | some field, some type =>
        Layout.writeField m.types m.shader.facts type { field with name := "$Element" }
          bufferPlacement size r
      | _, _ => writePlaceholder size r
  r.blank

theorem writePlainElement_eq (m : Module) (v : View) (r : Report) :
    m.writePlainElement v r = r.lines (m.plainElementLines r.marker v) := by
  unfold writePlainElement plainElementLines
  cases m.layoutStruct? v.binding with
  | none => exact Report.lines_lines r _ _
  | some wrapper =>
      dsimp only
      cases (Layout.usableFacts? m.types m.shader.facts wrapper).bind (·.fields[0]?) with
      | none => exact Report.lines_lines r _ _
      | some field =>
          cases v.elementType with
          | none => exact Report.lines_lines r _ _
          | some type =>
              dsimp only
              rw [Layout.writeField_eq]
              exact Report.lines_lines r _ _

/-- Writes a structured buffer. -/
def writeStructuredBuffer (m : Module) (v : View) : Report → Report :=
  writeBufferBlock (" Resource bind info for " ++ v.binding.name) fun r =>
    match v.elementType.filter fun type => m.types.isStruct type && !m.types.isMatrix type with
    | some type => m.writeStructElement type r
    | none => m.writePlainElement v r

theorem writeStructuredBuffer_eq (m : Module) (v : View) (r : Report) :
    m.writeStructuredBuffer v r = r.lines (m.structuredBufferLines r.marker v) := by
  refine writeBufferBlock_eq ?_
  intro s same
  rw [← same]
  cases v.elementType.filter fun type => m.types.isStruct type && !m.types.isMatrix type with
  | none => exact m.writePlainElement_eq v s
  | some type => exact m.writeStructElement_eq type s

/-- Writes a read-only view, if it has a layout to show. -/
def writeSrv (m : Module) (r : Report) (v : View) : Report :=
  if v.isStructuredBuffer then m.writeStructuredBuffer v r
  else if v.isTextureBuffer then m.writeTextureBuffer v r
  else r

theorem writeSrv_eq (m : Module) (r : Report) (v : View) :
    m.writeSrv r v = r.lines (m.srvLines r.marker v) := by
  unfold writeSrv srvLines
  split
  next => exact m.writeStructuredBuffer_eq v r
  next =>
      split
      next => exact m.writeTextureBuffer_eq v r
      next => exact (Report.lines_nil r).symm

/-- Writes a writable view, if it has a layout to show. -/
def writeUav (m : Module) (r : Report) (v : View) : Report :=
  if v.isStructuredBuffer then m.writeStructuredBuffer v r else r

theorem writeUav_eq (m : Module) (r : Report) (v : View) :
    m.writeUav r v = r.lines (m.uavLines r.marker v) := by
  unfold writeUav uavLines
  split
  next => exact m.writeStructuredBuffer_eq v r
  next => exact (Report.lines_nil r).symm

/-- Writes the section on buffer contents. -/
def writeBuffers (m : Module) (r : Report) : Report :=
  let r := (r.blank.line " Buffer Definitions:").blank
  let r := m.shader.constantBuffers.foldl (fun r b => m.writeConstantBuffer b r) r
  let r := m.shader.srvs.foldl m.writeSrv r
  m.shader.uavs.foldl m.writeUav r

theorem writeBuffers_eq (m : Module) (r : Report) :
    m.writeBuffers r = r.lines (m.bufferLines r.marker) := by
  have constantBuffers : ∀ r : Report,
      m.shader.constantBuffers.foldl (fun r b => m.writeConstantBuffer b r) r =
        r.lines (m.shader.constantBuffers.flatMap (m.constantBufferLines r.marker)) :=
    Report.foldl_lines _ fun r b _ => m.writeConstantBuffer_eq b r
  have srvs : ∀ r : Report, m.shader.srvs.foldl m.writeSrv r =
      r.lines (m.shader.srvs.flatMap (m.srvLines r.marker)) :=
    Report.foldl_lines _ fun r v _ => m.writeSrv_eq r v
  have uavs : ∀ r : Report, m.shader.uavs.foldl m.writeUav r =
      r.lines (m.shader.uavs.flatMap (m.uavLines r.marker)) :=
    Report.foldl_lines _ fun r v _ => m.writeUav_eq r v
  simp [writeBuffers, bufferLines, constantBuffers, srvs, uavs, Report.blank, Report.line]

end Module

end ShaderReport
