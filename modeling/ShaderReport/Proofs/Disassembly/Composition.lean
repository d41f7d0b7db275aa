/-
# What a disassembly is put together from

A disassembly consists of sections, and which ones there are is decided section by
section.

 * `Contents.Of` says what a container adds: a section for each of five parts, if the
   first part of its name is there and decodes.  An input that is no container adds
   nothing.  How the pipeline facts decode depends on the stage of the selected program.
 * `Module.sections` are the tables of a module that has the metadata of a shader, and
   its listing, which is always there.

No section depends on another.  One that is written into a report with something in it
adds what it would be on its own (`Section.alone`), so writing them one after another is
joining them (`Section.foldl_write`).
-/
import ShaderReport.Proofs.Disassembly.Failure
import ShaderReport.Proofs.Module.Printing
import ShaderReport.Proofs.Report.Writing

namespace ShaderReport

open Container

/-! ## Sections -/

/-- A section of a disassembly, with what it is about. -/
inductive Section where
  | features (info : FeatureInfo)
  | registers (title : String) (direction : Direction) (signature : RegisterSignature)
  | runtimeInfo (info : RuntimeInfo)
  | semantics (title : String) (elements : List SemanticElement)
  | buffers (m : Module)
  | bindings (m : Module)
  | listing (m : Module)

namespace Section

/-- Writes a section into a report. -/
def write : Section → Report → Report
  | .features info, r => info.write r
  | .registers title direction signature, r => signature.write title direction r
  | .runtimeInfo info, r => info.write r
  | .semantics title elements, r => SemanticElement.write elements title r
  | .buffers m, r => m.writeBuffers r
  | .bindings m, r => m.writeBindings r
  | .listing m, r => { r with text := m.print Operation.remarks r.text }

/-- The text of a section. -/
def text (marker : Char) : Section → String
  | .features info => Report.marked marker info.lines
  | .registers title direction signature => Report.marked marker (signature.lines title direction)
  | .runtimeInfo info => Report.marked marker info.lines
  | .semantics title elements => Report.marked marker (SemanticElement.lines elements title)
  | .buffers m => Report.marked marker (m.bufferLines marker)
  | .bindings m => Report.marked marker m.bindingLines
  | .listing m => m.listing Operation.remarks

/-- What is written into an empty report. -/
def alone (marker : Char) (s : Section) : String := (s.write { marker }).text

theorem write_eq (s : Section) (r : Report) : s.write r = r.append (s.text r.marker) := by
  cases s with
  | features info => exact info.write_eq r
  | registers title direction signature => exact signature.write_eq title direction r
  | runtimeInfo info => exact info.write_eq r
  | semantics title elements => exact SemanticElement.write_eq elements title r
  | buffers m => exact m.writeBuffers_eq r
  | bindings m => exact m.writeBindings_eq r
  | listing m =>
      have printed := m.print_eq Operation.remarks r.text
      simp only [write, text, Report.append, printed]

theorem alone_eq (marker : Char) (s : Section) : s.alone marker = s.text marker := by
  rw [alone, write_eq]
  exact String.empty_append

theorem appendsOnly_write (s : Section) : Report.AppendsOnly s.write :=
  @Report.appendsOnly_of_append s.write (fun marker => s.text marker) s.write_eq

/-- Sections that are written one after another stand one behind the other. -/
theorem foldl_write (sections : List Section) (r : Report) :
    sections.foldl (fun r s => s.write r) r =
      r.append (String.join (sections.map (alone r.marker))) := by
  induction sections generalizing r with
  | nil => simp [Report.append]
  | cons s sections ih =>
      rw [List.foldl_cons, ih, write_eq, List.map_cons, String.join_cons, alone_eq]
      simp [Report.append, String.append_assoc]

end Section

/-! ## Sections of a container -/

/-- The input is a container, and the first part of the name is there and decodes. -/
def PartDecodes {ε α : Type} (input : Bytes) (tag : Tag) (decode : Bytes → Except ε α)
    (content : α) : Prop :=
  WellFormed input ∧ ∃ payload, IsFirst (partsOf input) tag payload ∧ decode payload = .ok content

/-- What the parts behind the sections decode to. -/
structure Contents where
  features : Option FeatureInfo := none
  inputs : Option RegisterSignature := none
  outputs : Option RegisterSignature := none
  patchConstants : Option RegisterSignature := none
  runtimeInfo : Option RuntimeInfo := none

/-- The sections of a container, in order. -/
def Contents.sections (c : Contents) : List Section :=
  (c.features.map .features).toList ++
    (c.inputs.map (.registers "Input" .input)).toList ++
    (c.outputs.map (.registers "Output" .output)).toList ++
    (c.patchConstants.map (.registers "Patch Constant" .output)).toList ++
    (c.runtimeInfo.map .runtimeInfo).toList

/-- The contents are those of the input: each is there exactly if its part decodes to it. -/
structure Contents.Of (preferDebug : Bool) (input : Bytes) (c : Contents) : Prop where
  features : ∀ info, c.features = some info ↔
    PartDecodes input .featureInfo FeatureInfo.parse info
  inputs : ∀ s, c.inputs = some s ↔ PartDecodes input .inputSignature RegisterSignature.parse s
  outputs : ∀ s, c.outputs = some s ↔ PartDecodes input .outputSignature RegisterSignature.parse s
  patchConstants : ∀ s, c.patchConstants = some s ↔
    PartDecodes input .patchConstantSignature RegisterSignature.parse s
  runtimeInfo : ∀ info, c.runtimeInfo = some info ↔
    ∃ selected program, Selected preferDebug (partsOf input) selected ∧
      Program.parse selected = .ok program ∧
      PartDecodes input .runtimeInfo (RuntimeInfo.parse · program.stage) info

section Container

variable {input : Bytes} {preferDebug : Bool}

/-- One input has one set of contents. -/
theorem Contents.Of.unique {c c' : Contents} (h : c.Of preferDebug input)
    (h' : c'.Of preferDebug input) : c = c' := by
  obtain ⟨features, inputs, outputs, patchConstants, runtimeInfo⟩ := c
  obtain rfl := Option.ext fun info => (h.features info).trans (h'.features info).symm
  obtain rfl := Option.ext fun s => (h.inputs s).trans (h'.inputs s).symm
  obtain rfl := Option.ext fun s => (h.outputs s).trans (h'.outputs s).symm
  obtain rfl := Option.ext fun s => (h.patchConstants s).trans (h'.patchConstants s).symm
  obtain rfl := Option.ext fun info => (h.runtimeInfo info).trans (h'.runtimeInfo info).symm
  rfl

/-- A part that is absent and one that does not decode are the same. -/
theorem decoded?_ofBytes {ε α : Type} (tag : Tag) (decode : Bytes → Except ε α) :
    (ofBytes input).decoded? tag decode =
      (first? (partsOf input) tag).bind fun payload => (decode payload).toOption := by
  rw [decoded?, payload?_eq]
  rfl

theorem decoded?_eq_some_iff {ε α : Type} {tag : Tag} {decode : Bytes → Except ε α} {content : α}
    (formed : WellFormed input) :
    (ofBytes input).decoded? tag decode = some content ↔ PartDecodes input tag decode content := by
  have decodes : ∀ payload, (decode payload).toOption = some content ↔
      decode payload = .ok content := by
    intro payload
    cases decode payload <;> simp [Except.toOption]
  simp only [decoded?_ofBytes, Option.bind_eq_some_iff, first?_eq_some_iff, decodes, PartDecodes,
    formed, true_and]

/-- The contents of a container whose program is for the given stage. -/
def Contents.ofContainer (c : Container) (stage : Stage) : Contents where
  features := c.decoded? .featureInfo FeatureInfo.parse
  inputs := c.decoded? .inputSignature RegisterSignature.parse
  outputs := c.decoded? .outputSignature RegisterSignature.parse
  patchConstants := c.decoded? .patchConstantSignature RegisterSignature.parse
  runtimeInfo := c.decoded? .runtimeInfo (RuntimeInfo.parse · stage)

theorem of_ofContainer {program : Program} (formed : WellFormed input)
    (found : (ofBytes input).program preferDebug = .ok program) :
    Contents.Of preferDebug input (.ofContainer (ofBytes input) program.stage) := by
  refine ⟨fun _ => decoded?_eq_some_iff formed, fun _ => decoded?_eq_some_iff formed,
    fun _ => decoded?_eq_some_iff formed, fun _ => decoded?_eq_some_iff formed, ?_⟩
  intro info
  obtain ⟨there, selected, chosen, parsed⟩ := selected_of_program found
  constructor
  · intro decoded
    exact ⟨selected, program, chosen, parsed, (decoded?_eq_some_iff formed).mp decoded⟩
  · rintro ⟨other, program', chosen', parsed', decodes⟩
    -- only one program can be selected
    have again := program_of_selected there chosen'
    rw [parsed', found] at again
    cases again
    exact (decoded?_eq_some_iff formed).mpr decodes

/-- An input that announces no container has no contents. -/
theorem of_none (h : input.take 4 ≠ Tag.container.toBytes) :
    Contents.Of preferDebug input {} := by
  have malformed : ¬ WellFormed input := by
    intro formed
    have container := parse?_eq_some_iff.mpr ⟨formed, rfl⟩
    rw [parse?_eq_none_iff.mpr h] at container
    cases container
  have nothing : ∀ {ε α : Type} {tag : Tag} {decode : Bytes → Except ε α} {content : α},
      ¬ PartDecodes input tag decode content := fun decodes => malformed decodes.1
  refine ⟨?_, ?_, ?_, ?_, ?_⟩ <;> simp [nothing]

/-- A section that is left out has no text. -/
theorem join_partSection {ε α : Type} {c : Container} {tag : Tag} {decode : Bytes → Except ε α}
    {lines : α → List String} {marker : Char} {s : α → Section}
    (h : ∀ content, (s content).text marker = Report.marked marker (lines content)) :
    Report.marked marker (c.partLines tag decode lines) =
      String.join (((c.decoded? tag decode).map s).toList.map (Section.text marker)) := by
  rw [partLines_eq]
  cases c.decoded? tag decode with
  | none => rfl
  | some content => simp [h]

theorem marked_lines (c : Container) (stage : Stage) (marker : Char) :
    Report.marked marker (c.lines stage) =
      String.join ((Contents.ofContainer c stage).sections.map (Section.text marker)) := by
  have features := @join_partSection _ _ c .featureInfo FeatureInfo.parse FeatureInfo.lines marker
    .features fun _ => rfl
  have registers : ∀ tag title direction,
      Report.marked marker (c.signatureLines tag title direction) =
        String.join (((c.decoded? tag RegisterSignature.parse).map
          (.registers title direction)).toList.map (Section.text marker)) :=
    fun _ _ _ => join_partSection fun _ => rfl
  have runtimeInfo := @join_partSection _ _ c .runtimeInfo (RuntimeInfo.parse · stage)
    RuntimeInfo.lines marker .runtimeInfo fun _ => rfl
  simp only [Container.lines, featureLines, runtimeInfoLines, Report.marked_append, features,
    registers, runtimeInfo, Contents.sections, Contents.ofContainer, List.map_append,
    String.join_append]

end Container

/-! ## Sections of a module -/

/-- The sections of a module, in order.  Only a shader has tables. -/
def Module.sections (m : Module) : List Section :=
  (if ∃ md ∈ m.metadata, md.name = "dx.version" then
    [.semantics "Input" m.shader.inputs, .semantics "Output" m.shader.outputs,
     .semantics "Patch Constant" m.shader.patchConstants, .buffers m, .bindings m]
  else []) ++ [.listing m]

theorem Module.isShader_iff (m : Module) :
    m.isShader = true ↔ ∃ md ∈ m.metadata, md.name = "dx.version" := by
  rw [isShader, metadata?, versionMetadata, List.find?_isSome]
  simp

/-- The sections of a module stand behind the lines that are there. -/
theorem render_eq (marker : Char) (source : Source) (m : Module) :
    render marker source m = Report.marked marker source.lines ++
      String.join (m.sections.map (Section.text marker)) := by
  unfold render Module.sections
  by_cases shader : ∃ md ∈ m.metadata, md.name = "dx.version"
  · rw [if_pos shader]
    simp only [m.isShader_iff.mpr shader, if_true]
    simp [Report.lines, Report.append, Module.tableLines, Report.marked_append, Section.text,
      String.append_assoc]
  · rw [if_neg shader]
    simp only [mt m.isShader_iff.mp shader]
    simp [Report.lines, Report.append, Section.text]

/-! ## The whole text -/

/-- The lines of a source are sections of the input's contents. -/
theorem exists_contents {preferDebug : Bool} {input : Bytes} {source : Source}
    (h : Source.ofInput preferDebug input = .ok source) (marker : Char) :
    ∃ c : Contents, c.Of preferDebug input ∧ Report.marked marker source.lines =
      String.join (c.sections.map (Section.text marker)) := by
  cases parsed : Container.parse? input with
  | error fault =>
      rw [Source.ofInput, parsed] at h
      cases h
  | ok found =>
      cases found with
      | none =>
          have bare : source.lines = [] := by
            rw [Source.ofInput, parsed] at h
            cases program : Program.parse input with
            | error fault =>
                simp only [program] at h
                cases h
                rfl
            | ok p =>
                simp only [program] at h
                cases h
                rfl
          refine ⟨{}, of_none (parse?_eq_none_iff.mp parsed), ?_⟩
          rw [bare]
          rfl
      | some c =>
          obtain ⟨formed, rfl⟩ := parse?_eq_some_iff.mp parsed
          rw [ofInput_of_wellFormed formed] at h
          cases program : (ofBytes input).program preferDebug with
          | error e =>
              rw [program] at h
              cases h
          | ok p =>
              rw [program] at h
              cases h
              exact ⟨_, of_ofContainer formed program, marked_lines _ _ _⟩

/-- A disassembly is its sections one behind the other.  Each is what its writer leaves in
an empty report, and no writer does anything to a report but append to it, those that lay
out structs and fields included. -/
theorem disassemble_sections {options : Options} {loader : Loader} {input : Bytes} {text : String}
    (h : disassemble options loader input = .ok text) :
    (∃ c m bitcode, Contents.Of options.preferDebug input c ∧
      Chosen options.preferDebug input bitcode ∧ loader bitcode "" = .ok m ∧
      text = String.join ((c.sections ++ m.sections).map (Section.alone options.marker)) ∧
      ∀ r : Report, r.marker = options.marker →
        (c.sections ++ m.sections).foldl (fun r s => s.write r) r = r.append text) ∧
    (∀ (s : Section) (marker : Char), s.alone marker = s.text marker) ∧
    (∀ s : Section, Report.AppendsOnly s.write) ∧
    ∀ (t : TypeTable) (facts : LayoutFacts) (type : TypeId) (place : Placement) (size : Nat),
      (∀ label, Report.AppendsOnly (Layout.writeBlock t facts type label place size)) ∧
      (∀ field, Report.AppendsOnly (Layout.writeField t facts type field place size)) ∧
      Report.AppendsOnly (Layout.writeLine (.placeholder place.indent size)) := by
  refine ⟨?_, fun s marker => s.alone_eq marker, Section.appendsOnly_write, ?_⟩
  · rw [disassemble] at h
    cases found : Source.ofInput options.preferDebug input with
    | error e =>
        rw [found] at h
        cases h
    | ok source =>
        rw [found] at h
        cases loaded : loader source.bitcode "" with
        | error cause =>
            simp only [loaded] at h
            cases h
        | ok m =>
            simp only [loaded] at h
            cases h
            obtain ⟨c, contents, written⟩ := exists_contents found options.marker
            have chosen := exists_ofInput_iff.mp ⟨source, found, rfl⟩
            have joined : render options.marker source m =
                String.join ((c.sections ++ m.sections).map (Section.alone options.marker)) := by
              rw [render_eq, written, ← String.join_append, ← List.map_append]
              exact congrArg _ (congrArg (List.map · _) (funext fun s => (s.alone_eq _).symm))
            refine ⟨c, m, source.bitcode, contents, chosen, loaded, joined, ?_⟩
            intro r same
            rw [Section.foldl_write, same, joined]
  · intro t facts type place size
    refine ⟨?_, ?_, Layout.appendsOnly_writeLine _⟩
    · intro label
      exact Layout.appendsOnly_writeBlock t facts type label place size
    · intro field
      exact Layout.appendsOnly_writeField t facts type field place size

/-- A part that decodes, one that does not, and a program. -/
def featuredParts : List (Tag × Bytes) :=
  [(.featureInfo, [1, 0, 0, 0, 0, 0, 0, 0]), (.inputSignature, [1]), (.program, smallProgram)]

/-- A shader without anything in it. -/
def versionedModule : Module where
  metadata := [{ name := "dx.version", operands := [] }]

/-- Of the container's parts, the features alone have a section. -/
theorem disassemble_sections_featured :
    ∃ text, disassemble {} (fun _ _ => .ok versionedModule) (build featuredParts) = .ok text ∧
      text = String.join
        (([.features ⟨1⟩, .semantics "Input" [], .semantics "Output" [],
           .semantics "Patch Constant" [], .buffers versionedModule, .bindings versionedModule,
           .listing versionedModule] : List Section).map (Section.alone ';')) := by
  have limits : Buildable featuredParts := by decide
  have held : partsOf (build featuredParts) = featuredParts := limits.pairs_build
  have formed := (parse?_eq_some_iff.mp limits.parse?_build).1
  have plain : IsFirst (partsOf (build featuredParts)) .program smallProgram := by
    rw [held]
    exact first?_eq_some_iff.mp rfl
  have selected : Selected true (partsOf (build featuredParts)) smallProgram := by
    refine .plain ?_ plain
    rw [held]
    exact fun _ => first?_eq_none_iff.mp rfl
  have parsed : Program.parse smallProgram =
      .ok ⟨⟨0x60⟩, 7, 0x100, 16, Bitcode.magic, .pixel⟩ := rfl
  have program : (ofBytes (build featuredParts)).program true =
      .ok ⟨⟨0x60⟩, 7, 0x100, 16, Bitcode.magic, .pixel⟩ := by
    rw [program_of_selected plain.not_lacks selected, parsed]
  obtain ⟨source, found, -⟩ := (Chosen.inContainer formed plain.not_lacks selected parsed).ofInput_eq
  have accepted : disassemble {} (fun _ _ => .ok versionedModule) (build featuredParts) =
      .ok (render ';' source versionedModule) := by
    rw [disassemble, found]
  obtain ⟨⟨c, m, bitcode, contents, -, loaded, joined, -⟩, -⟩ := disassemble_sections accepted
  cases loaded
  have decoded : c.sections = [.features ⟨1⟩] := by
    rw [contents.unique (of_ofContainer formed program), Contents.ofContainer]
    simp only [decoded?_ofBytes, held]
    rfl
  refine ⟨_, accepted, joined.trans ?_⟩
  rw [decoded, Module.sections, if_pos ⟨_, List.mem_cons_self, rfl⟩]
  rfl

end ShaderReport
