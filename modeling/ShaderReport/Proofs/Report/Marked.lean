/-
# Which report lines begin with the marker

Each line of a section is written behind the marker and ended by a break, so the
text begins every line with the marker as long as no line holds a break of its
own.  All texts a section is made of are on one line, except the names of register
elements, which come from the input and are shown as they are.

So the names decide: every line of the sections begins with the marker exactly if
in every row that is shown each break of the name is followed by the marker
(`disassemble_marked_iff`).  What follows the last character of a name is a blank
of its column, a blank of the next column, or the first digit of the index; this is
why the index column stands in `nameColumns`.
-/
import ShaderReport.Container.Build
import ShaderReport.Disassembly
import ShaderReport.Proofs.Text.Lines

namespace ShaderReport

open Text

/-! ## Sections without names -/

theorem Feature.oneLine_description (f : Feature) : OneLine f.description := by
  cases f <;> decide +kernel

theorem FeatureInfo.oneLine_lines (info : FeatureInfo) : ∀ l ∈ info.lines, OneLine l := by
  intro l hl
  by_cases zero : info.raw = 0
  · rw [FeatureInfo.lines, if_pos zero] at hl
    exact absurd hl List.not_mem_nil
  · rw [FeatureInfo.lines, if_neg zero] at hl
    simp only [List.mem_append, List.mem_map, List.mem_cons, List.not_mem_nil, or_false] at hl
    rcases hl with ((rfl | rfl) | ⟨f, -, rfl⟩) | rfl
    · decide
    · decide
    · exact (oneLine_append _ _).mpr ⟨by decide, f.oneLine_description⟩
    · decide

namespace RuntimeInfo

theorem oneLine_flagText (flag : Bool) : OneLine (flagText flag) := by
  cases flag <;> decide

theorem oneLine_nameIn {table : List String} (h : ∀ s ∈ table, OneLine s) (place : UInt32) :
    OneLine (nameIn table place) :=
  oneLine_getD h place.toNat (by decide)

theorem oneLine_factLines (info : RuntimeInfo) : ∀ l ∈ info.factLines, OneLine l := by
  have primitives : ∀ s ∈ inputPrimitives, OneLine s := by decide +kernel
  have shapes : ∀ s ∈ topologies, OneLine s := by decide
  have domains : ∀ s ∈ tessDomains, OneLine s := by decide
  have outputs : ∀ s ∈ tessPrimitives, OneLine s := by decide
  cases info <;> simp only [factLines, List.forall_mem_cons, List.not_mem_nil, false_imp_iff,
    implies_true, and_true, oneLine_append]
  case vertex => exact ⟨by decide, by decide, oneLine_flagText _⟩
  case pixel =>
      exact ⟨by decide, ⟨by decide, oneLine_flagText _⟩, by decide, oneLine_flagText _⟩
  case geometry =>
      exact ⟨by decide, ⟨by decide, oneLine_nameIn primitives _⟩,
        ⟨by decide, oneLine_nameIn shapes _⟩, ⟨by decide, oneLine_repr _⟩,
        by decide, oneLine_flagText _⟩
  case hull =>
      exact ⟨by decide, ⟨by decide, oneLine_repr _⟩, ⟨by decide, oneLine_repr _⟩,
        ⟨by decide, oneLine_nameIn domains _⟩, by decide, oneLine_nameIn outputs _⟩
  case domain =>
      exact ⟨by decide, ⟨by decide, oneLine_repr _⟩, by decide, oneLine_flagText _⟩

theorem oneLine_lines (info : RuntimeInfo) : ∀ l ∈ info.lines, OneLine l := by
  have head : ∀ l ∈ ["", " Pipeline Runtime Information:", ""], OneLine l := by decide
  have last : ∀ l ∈ [""], OneLine l := by decide
  rw [lines, List.forall_mem_append, List.forall_mem_append]
  exact ⟨⟨head, info.oneLine_factLines⟩, last⟩

end RuntimeInfo

/-! ## Rows of a register signature -/

namespace RegisterElement

theorem oneLine_maskText (mask : UInt8) : OneLine (maskText mask) := by
  rw [maskText, oneLine_ofList]
  intro h
  obtain ⟨⟨letter, bit⟩, place, shown⟩ := List.mem_map.mp h
  have letters : ∀ entry ∈ "xyzw".toList.zipIdx, entry.1 ≠ '\n' := by decide
  by_cases set : mask.toNat.testBit bit
  · exact letters _ place ((if_pos set).symm.trans shown)
  · exact absurd ((if_neg set).symm.trans shown) (by decide)

theorem oneLine_specialRegisterText (e : RegisterElement) : OneLine e.specialRegisterText := by
  have texts : ∀ entry ∈ specialRegisters, OneLine entry.2 := by decide
  rw [specialRegisterText]
  split
  next name text found => exact texts _ (List.mem_of_find?_eq_some found)
  next =>
      split
      · decide
      · decide

theorem oneLine_systemValue (e : RegisterElement) :
    OneLine ((e.systemValue?.map SystemValue.shortName).getD "unknown") := by
  cases e.systemValue? with
  | none => decide
  | some v => cases v <;> decide

theorem oneLine_format (e : RegisterElement) :
    OneLine ((e.format?.map RegisterFormat.shortName).getD "unknown") := by
  cases e.format? with
  | none => decide
  | some v => cases v <;> decide

/-- The name and the index, as a row shows them. -/
def nameColumns (e : RegisterElement) (hasStreams : Bool) : String :=
  Text.padRight (if hasStreams then 17 else 20) e.name ++ Text.padLeft 6 e.index.toNat.repr

/-- Around the name and the index there is no line break. -/
theorem row_eq (e : RegisterElement) (hasStreams : Bool) (direction : Direction) :
    ∃ front rest, e.row hasStreams direction = front ++ e.nameColumns hasStreams ++ rest ∧
      OneLine front ∧ OneLine rest := by
  let front := " " ++ if hasStreams then "m" ++ e.stream.toNat.repr ++ ":" else ""
  let register :=
    if e.hasRegister then "   " ++ maskText e.mask ++ Text.padLeft 9 e.register.toNat.repr
    else "    N/A" ++ e.specialRegisterText
  let used :=
    if e.hasRegister then "   " ++ maskText (e.used direction)
    else if e.used direction = 0 then "     NO" else "    YES"
  refine ⟨front, register ++
    Text.padLeft 9 ((e.systemValue?.map SystemValue.shortName).getD "unknown") ++
    Text.padLeft 8 ((e.format?.map RegisterFormat.shortName).getD "unknown") ++ used, ?_, ?_, ?_⟩
  · cases hasStreams with
    | true => simp [row, nameColumns, front, register, used, String.append_assoc]
    | false => simp [row, nameColumns, front, register, used, String.append_assoc]
  · rw [oneLine_append]
    refine ⟨by decide, oneLine_ite ?_ (by decide)⟩
    rw [oneLine_append, oneLine_append]
    exact ⟨⟨by decide, oneLine_repr _⟩, by decide⟩
  · have oneLine_register : OneLine register := by
      refine oneLine_ite ?_ ?_
      · rw [oneLine_append, oneLine_append, oneLine_padLeft]
        exact ⟨⟨by decide, oneLine_maskText _⟩, oneLine_repr _⟩
      · rw [oneLine_append]
        exact ⟨by decide, e.oneLine_specialRegisterText⟩
    have oneLine_used : OneLine used := by
      refine oneLine_ite ?_ (oneLine_ite (by decide) (by decide))
      rw [oneLine_append]
      exact ⟨by decide, oneLine_maskText _⟩
    simp only [oneLine_append, oneLine_padLeft]
    exact ⟨⟨⟨oneLine_register, e.oneLine_systemValue⟩, e.oneLine_format⟩, oneLine_used⟩

variable {marker : Char}

theorem breaksMarked_row_iff (e : RegisterElement) (hasStreams : Bool) (direction : Direction) :
    BreaksMarked marker (e.row hasStreams direction).toList ↔
      BreaksMarked marker (e.nameColumns hasStreams).toList := by
  obtain ⟨front, rest, row, oneLine_front, oneLine_rest⟩ := e.row_eq hasStreams direction
  -- the index is never empty, so what follows it does not follow the name
  have index : (Text.padLeft 6 e.index.toNat.repr).toList ≠ [] := by
    simp [Text.padLeft, Nat.toList_repr, Nat.toDigits_ne_nil]
  have oneLine_index : OneLine (Text.padLeft 6 e.index.toNat.repr) :=
    (oneLine_padLeft _ _).mpr (oneLine_repr _)
  rw [row, String.toList_append, String.toList_append, List.append_assoc,
    breaksMarked_append_left oneLine_front, nameColumns, String.toList_append]
  exact breaksMarked_append_right _ index oneLine_index oneLine_rest

/-- A marker that is neither a blank nor a digit can only stand in the name itself. -/
theorem breaksMarked_nameColumns_iff (e : RegisterElement) (hasStreams : Bool)
    (blank : marker ≠ ' ') (digit : marker.isDigit = false) :
    BreaksMarked marker (e.nameColumns hasStreams).toList ↔
      BreaksMarked marker e.name.toList := by
  have behind : (e.nameColumns hasStreams).toList = e.name.toList ++
      (Text.blanks ((if hasStreams then 17 else 20) - e.name.length) ++
        Text.padLeft 6 e.index.toNat.repr).toList := by
    rw [nameColumns, Text.padRight, String.append_assoc, String.toList_append]
  rw [behind]
  refine breaksMarked_append_other _ ?_ ?_
  · exact (oneLine_append _ _).mpr ⟨oneLine_blanks _, (oneLine_padLeft _ _).mpr (oneLine_repr _)⟩
  · intro first
    have member := List.mem_of_mem_head? (Option.mem_def.mpr first)
    simp only [Text.padLeft, Text.blanks, String.toList_append, String.toList_ofList,
      Nat.toList_repr, List.mem_append, List.mem_replicate] at member
    rcases member with ⟨-, isBlank⟩ | ⟨-, isBlank⟩ | inIndex
    · exact blank isBlank
    · exact blank isBlank
    · have isDigit := Nat.isDigit_of_mem_toDigits (by decide) (by decide) inIndex
      rw [digit] at isDigit
      cases isDigit

end RegisterElement

/-! ## Sections of a container -/

section Sections

variable {marker : Char}

theorem oneLine_signatureTitle {title : String} (ht : OneLine title) :
    ∀ l ∈ signatureTitle title, OneLine l := by
  have titled : OneLine (" " ++ title ++ " signature:") := by
    rw [oneLine_append, oneLine_append]
    exact ⟨⟨by decide, ht⟩, by decide⟩
  intro l hl
  simp only [signatureTitle, List.mem_cons, List.not_mem_nil, or_false] at hl
  rcases hl with rfl | rfl | rfl
  · decide
  · exact titled
  · decide

theorem RegisterSignature.breaksMarked_rows_iff (s : RegisterSignature) (direction : Direction) :
    (∀ l ∈ s.rows direction, BreaksMarked marker l.toList) ↔
      ∀ e ∈ s.elements, BreaksMarked marker (e.nameColumns s.hasStreams).toList := by
  rw [RegisterSignature.rows, List.forall_mem_map]
  simp only [RegisterElement.breaksMarked_row_iff]

theorem RegisterSignature.breaksMarked_lines_iff (s : RegisterSignature) {title : String}
    (ht : OneLine title) (direction : Direction) :
    (∀ l ∈ s.lines title direction, BreaksMarked marker l.toList) ↔
      ∀ e ∈ s.elements, BreaksMarked marker (e.nameColumns s.hasStreams).toList := by
  have columns : ∀ l ∈
      [" Name                 Index   Mask Register SysValue  Format   Used",
       " -------------------- ----- ------ -------- -------- ------- ------"], OneLine l := by
    decide +kernel
  have head : ∀ l ∈ signatureTitle title ++
      [" Name                 Index   Mask Register SysValue  Format   Used",
       " -------------------- ----- ------ -------- -------- ------- ------"],
      BreaksMarked marker l.toList := by
    intro l hl
    rcases List.mem_append.mp hl with inTitle | inColumns
    · exact (oneLine_signatureTitle ht l inTitle).breaksMarked
    · exact (columns l inColumns).breaksMarked
  rw [RegisterSignature.lines, ← s.breaksMarked_rows_iff direction]
  by_cases none : s.elements.isEmpty
  · have rows : s.rows direction = [] := by
      rw [RegisterSignature.rows, List.isEmpty_iff.mp none]
      rfl
    have said : OneLine " no parameters" := by decide
    rw [if_pos none, rows]
    refine iff_of_true ?_ (List.forall_mem_nil _)
    intro l hl
    rcases List.mem_append.mp hl with inHead | inRest
    · exact head l inHead
    · rw [List.mem_singleton.mp inRest]
      exact said.breaksMarked
  · rw [if_neg none]
    constructor
    · intro h l hl
      exact h l (List.mem_append_right _ (List.mem_append_left _ hl))
    · intro h l hl
      rcases List.mem_append.mp hl with inHead | inRest
      · exact head l inHead
      · rcases List.mem_append.mp inRest with inRows | last
        · exact h l inRows
        · rw [List.mem_singleton.mp last]
          trivial

namespace Container

/-- The register elements shown for a part, and whether its rows name their stream. -/
def shownIn (c : Container) (tag : Tag) : List (RegisterElement × Bool) :=
  match c.payload? tag with
  | none => []
  | some payload =>
    match RegisterSignature.parse payload with
    | .ok s => s.elements.map fun e => (e, s.hasStreams)
    | .error _ => []

/-- The register elements shown for the three signatures. -/
def shown (c : Container) : List (RegisterElement × Bool) :=
  c.shownIn .inputSignature ++ c.shownIn .outputSignature ++ c.shownIn .patchConstantSignature

theorem oneLine_partLines {ε α : Type} {c : Container} {tag : Tag} {decode : Bytes → Except ε α}
    {lines : α → List String} (h : ∀ content, ∀ l ∈ lines content, OneLine l) :
    ∀ l ∈ c.partLines tag decode lines, OneLine l := by
  intro l hl
  rw [partLines] at hl
  split at hl
  next => exact absurd hl List.not_mem_nil
  next payload _ =>
      split at hl
      next content _ => exact h content l hl
      next => exact absurd hl List.not_mem_nil

theorem breaksMarked_signatureLines_iff (c : Container) (tag : Tag) {title : String}
    (ht : OneLine title) (direction : Direction) :
    (∀ l ∈ c.signatureLines tag title direction, BreaksMarked marker l.toList) ↔
      ∀ shown ∈ c.shownIn tag, BreaksMarked marker (shown.1.nameColumns shown.2).toList := by
  rw [signatureLines, partLines, shownIn]
  cases c.payload? tag with
  | none => exact iff_of_true (List.forall_mem_nil _) (List.forall_mem_nil _)
  | some payload =>
      cases decoded : RegisterSignature.parse payload with
      | error _ =>
          simp only [decoded]
          exact iff_of_true (List.forall_mem_nil _) (List.forall_mem_nil _)
      | ok s =>
          simp only [decoded, List.forall_mem_map]
          exact s.breaksMarked_lines_iff ht direction

theorem breaksMarked_lines_iff (c : Container) (stage : Stage) :
    (∀ l ∈ c.lines stage, BreaksMarked marker l.toList) ↔
      ∀ shown ∈ c.shown, BreaksMarked marker (shown.1.nameColumns shown.2).toList := by
  have features : ∀ l ∈ c.featureLines, BreaksMarked marker l.toList := by
    intro l hl
    exact (oneLine_partLines FeatureInfo.oneLine_lines l hl).breaksMarked
  have facts : ∀ l ∈ c.runtimeInfoLines stage, BreaksMarked marker l.toList := by
    intro l hl
    exact (oneLine_partLines RuntimeInfo.oneLine_lines l hl).breaksMarked
  simp only [lines, shown, List.forall_mem_append,
    breaksMarked_signatureLines_iff c _ (show OneLine "Input" by decide),
    breaksMarked_signatureLines_iff c _ (show OneLine "Output" by decide),
    breaksMarked_signatureLines_iff c _ (show OneLine "Patch Constant" by decide)]
  constructor
  · rintro ⟨⟨⟨⟨-, inputs⟩, outputs⟩, constants⟩, -⟩
    exact ⟨⟨inputs, outputs⟩, constants⟩
  · rintro ⟨⟨inputs, outputs⟩, constants⟩
    exact ⟨⟨⟨⟨features, inputs⟩, outputs⟩, constants⟩, facts⟩

end Container

/-- The register elements a report on the input shows. -/
def shownElements (input : Bytes) : List (RegisterElement × Bool) :=
  match Container.parse? input with
  | .ok (some c) => c.shown
  | _ => []

theorem Source.breaksMarked_lines_iff {preferDebug : Bool} {input : Bytes} {source : Source}
    (h : Source.ofInput preferDebug input = .ok source) :
    (∀ l ∈ source.lines, BreaksMarked marker l.toList) ↔
      ∀ shown ∈ shownElements input,
        BreaksMarked marker (shown.1.nameColumns shown.2).toList := by
  rw [Source.ofInput] at h
  rw [shownElements]
  cases parsed : Container.parse? input with
  | error fault =>
      simp only [parsed] at h
      cases h
  | ok found =>
      cases found with
      | none =>
          simp only [parsed] at h
          have none : source.lines = [] := by
            split at h
            · cases h
              rfl
            · cases h
              rfl
          rw [none]
          exact iff_of_true (List.forall_mem_nil _) (List.forall_mem_nil _)
      | some c =>
          simp only [parsed] at h
          split at h
          · cases h
          · cases h
            exact c.breaksMarked_lines_iff _

end Sections

/-! ## The whole text -/

/-- A module that was not decoded has no metadata, so it is no shader. -/
theorem render_undecoded {bitcode : Bytes} {name : String} {m : Module}
    (h : Loader.undecoded bitcode name = .ok m) (marker : Char) (source : Source) :
    render marker source m = Report.marked marker source.lines ++ m.listing Operation.remarks := by
  have plain : m.isShader = false := by
    rw [Loader.undecoded] at h
    cases unwrapped : Bitcode.unwrap bitcode with
    | error cause =>
        rw [unwrapped] at h
        cases h
    | ok u =>
        rw [unwrapped] at h
        cases h
        rfl
  simp only [render, plain, Report.lines, Report.append]
  simp

theorem Module.beginsWith_listing (m : Module) (remarks : Remarks) :
    Text.beginsWith "; ModuleID = " (m.listing remarks) = true := by
  have quoted : "; ModuleID = '" = "; ModuleID = " ++ "'" := by decide
  rw [Module.listing, Module.headText, Text.lines, List.append_assoc, List.map_append,
    List.map_singleton, List.singleton_append, String.join_cons, quoted]
  simp only [String.append_assoc]
  exact Text.beginsWith_append _ _

/-- Where the sections end the listing begins, and every line of the sections begins with
the marker exactly if every line break inside a name that is shown is followed by the
marker; a marker that is neither a blank nor a digit has to stand in the name itself. -/
theorem disassemble_marked_iff {options : Options} {input : Bytes} {text : String}
    (hm : options.marker ≠ '\n')
    (h : disassemble options Loader.undecoded input = .ok text) :
    ∃ source m, Source.ofInput options.preferDebug input = .ok source ∧
      Loader.undecoded source.bitcode "" = .ok m ∧
      text = Report.marked options.marker source.lines ++ m.listing Operation.remarks ∧
      Text.beginsWith "; ModuleID = " (m.listing Operation.remarks) = true ∧
      ((∀ l ∈ linesOf (Report.marked options.marker source.lines).toList,
          l.head? = some options.marker) ↔
        ∀ shown ∈ shownElements input,
          BreaksMarked options.marker (shown.1.nameColumns shown.2).toList) ∧
      (options.marker ≠ ' ' → options.marker.isDigit = false →
        ((∀ l ∈ linesOf (Report.marked options.marker source.lines).toList,
            l.head? = some options.marker) ↔
          ∀ shown ∈ shownElements input, BreaksMarked options.marker shown.1.name.toList)) := by
  rw [disassemble] at h
  cases found : Source.ofInput options.preferDebug input with
  | error e =>
      rw [found] at h
      cases h
  | ok source =>
      rw [found] at h
      cases loaded : Loader.undecoded source.bitcode "" with
      | error cause =>
          simp only [loaded] at h
          cases h
      | ok m =>
          simp only [loaded] at h
          cases h
          have columns := (marked_iff hm source.lines).trans (Source.breaksMarked_lines_iff found)
          refine ⟨source, m, rfl, loaded, render_undecoded loaded _ _,
            m.beginsWith_listing _, columns, ?_⟩
          intro blank digit
          rw [columns]
          simp only [RegisterElement.breaksMarked_nameColumns_iff _ _ blank digit]

/-- A container whose one register element has a name on two lines. -/
def brokenName : Bytes :=
  Container.build
    [(.inputSignature, RegisterSignature.build
      [{ stream := 0, name := "A\nB", index := 0, systemValueCode := 0, formatCode := 3,
         register := 0, mask := 15, usage := 15, minPrecision := 0 }]),
     (.program, Program.build .pixel Bitcode.magic)]

/-- It is disassembled, and the second line of the name begins with `B`. -/
theorem disassemble_brokenName :
    ∃ text source m, disassemble {} Loader.undecoded brokenName = .ok text ∧
      Source.ofInput true brokenName = .ok source ∧
      text = Report.marked ';' source.lines ++ Module.listing m Operation.remarks ∧
      ¬ ∀ l ∈ linesOf (Report.marked ';' source.lines).toList, l.head? = some ';' := by
  have accepted : (disassemble {} Loader.undecoded brokenName).toOption.isSome = true := by
    decide +kernel
  have unmarked : ¬ ∀ shown ∈ shownElements brokenName,
      BreaksMarked ';' (shown.1.nameColumns shown.2).toList := by
    decide +kernel
  cases result : disassemble {} Loader.undecoded brokenName with
  | error e =>
      rw [result] at accepted
      cases accepted
  | ok text =>
      obtain ⟨source, m, found, -, split, -, marked, -⟩ := disassemble_marked_iff (by decide) result
      exact ⟨text, source, m, rfl, found, split, fun all => unmarked (marked.mp all)⟩

end ShaderReport
