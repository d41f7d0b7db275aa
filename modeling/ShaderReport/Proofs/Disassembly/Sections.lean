/-
# The sections of a container, written one after another

`disassemble` first finds the program and then lays out all the sections at once.
`disassembleInOrder` is one pass over a report that only grows: each section is
written as soon as its part has been decoded, line after line, the checks of the
program stand between the fourth section and the fifth, and what was written before a
fatal error is still there.  The two give the same result
(`disassembleInOrder_eq`), so nothing said of one of them hangs on the order.

## When two containers are reported alike

A section is made from what its part decodes to (`decoded?`), where a part that is
absent and one that does not decode are the same.  `Alike` collects what the pass asks
of a container: the program, and the five decoded contents.  Containers that agree on
these leave the same report and the same outcome behind, whatever report the pass
started from (`Alike.writeSections_eq`), and therefore the same result
(`Alike.disassemble_eq`).
-/
import ShaderReport.Disassembly

namespace ShaderReport

/-! ## Writing line after line -/

namespace Report

@[simp] theorem lines_nil (r : Report) : r.lines [] = r := by
  simp [lines, append, marked]

@[simp] theorem lines_lines (r : Report) (xs ys : List String) :
    (r.lines xs).lines ys = r.lines (xs ++ ys) := by
  simp [lines, append, marked, String.append_assoc]

/-- Appends lines one at a time. -/
def write (r : Report) (ls : List String) : Report := ls.foldl Report.line r

theorem write_eq (r : Report) (ls : List String) : r.write ls = r.lines ls := by
  induction ls generalizing r with
  | nil => exact (lines_nil r).symm
  | cons l ls ih =>
      have step : r.write (l :: ls) = (r.line l).write ls := rfl
      rw [step, ih, line, lines_lines, List.singleton_append]

end Report

/-! ## One pass -/

namespace Container

/-- Writes the section made from the first part of a name.  Nothing is written before
the part has been decoded. -/
def writePart {ε α : Type} (c : Container) (tag : Tag) (decode : Bytes → Except ε α)
    (lines : α → List String) (r : Report) : Report :=
  match c.find? tag with
  | none => r
  | some p =>
    match decode (c.payload p) with
    | .ok content => r.write (lines content)
    | .error _ => r

/-- The register tables: part, title and side. -/
def registerTables : List (Tag × String × Direction) :=
  [(.inputSignature, "Input", .input),
   (.outputSignature, "Output", .output),
   (.patchConstantSignature, "Patch Constant", .output)]

/-- Writes the sections that do not need the program. -/
def writeLeading (c : Container) (r : Report) : Report :=
  registerTables.foldl
    (fun r (tag, title, direction) =>
      c.writePart tag RegisterSignature.parse (·.lines title direction) r)
    (c.writePart .featureInfo FeatureInfo.parse FeatureInfo.lines r)

/-- Writes all the sections and finds the bitcode.  The report is there in either case:
a fatal error does not take back what was written. -/
def writeSections (c : Container) (preferDebug : Bool) (r : Report) :
    Report × Except DisassemblyError Bytes :=
  let r := c.writeLeading r
  if (c.find? .program).isNone then (r, .error (.missingPart .program))
  else
    match if preferDebug then c.findPreferring? .debugProgram .program else c.find? .program with
    | none => (r, .error (.missingPart .program))
    | some p =>
      match Program.parse (c.payload p) with
      | .error fault => (r, .error (.malformed (.program fault)))
      | .ok program =>
        (c.writePart .runtimeInfo (RuntimeInfo.parse · program.stage) RuntimeInfo.lines r,
          .ok program.bitcode)

end Container

/-- Loads bitcode, and writes the module's tables and the listing behind a report. -/
def Report.finish (r : Report) (loader : Loader) (bitcode : Bytes) :
    Except DisassemblyError String :=
  match loader bitcode "" with
  | .error cause => .error (.load cause)
  | .ok m =>
    let r := if m.isShader then r.write (m.tableLines r.marker) else r
    .ok (r.append (m.listing Operation.remarks)).text

/-- Disassembles an input in one pass. -/
def disassembleInOrder (options : Options) (loader : Loader) (input : Bytes) :
    Except DisassemblyError String :=
  let r : Report := { marker := options.marker }
  match Container.parse? input with
  | .error fault => .error (.malformed (.container fault))
  | .ok (some c) =>
    match c.writeSections options.preferDebug r with
    | (_, .error e) => .error e
    | (r, .ok bitcode) => r.finish loader bitcode
  | .ok none =>
    match Program.parse input with
    | .ok program => r.finish loader program.bitcode
    | .error _ => r.finish loader input

/-! ## The pass and the sections -/

namespace Container

section Part

variable {ε α : Type} (c : Container) (tag : Tag) (decode : Bytes → Except ε α)
  (lines : α → List String)

theorem writePart_eq (r : Report) :
    c.writePart tag decode lines r = r.lines (c.partLines tag decode lines) := by
  rw [writePart, partLines, payload?]
  cases c.find? tag with
  | none => exact (Report.lines_nil r).symm
  | some p =>
      cases decoded : decode (c.payload p) with
      | error _ => simp [decoded]
      | ok content => simp [decoded, Report.write_eq]

/-- What the first part of a name decodes to; nothing if it is absent or does not
decode. -/
def decoded? : Option α := (c.payload? tag).bind fun payload => (decode payload).toOption

theorem partLines_eq :
    c.partLines tag decode lines = ((c.decoded? tag decode).map lines).getD [] := by
  rw [partLines, decoded?]
  cases c.payload? tag with
  | none => rfl
  | some payload =>
      cases decoded : decode payload with
      | error _ => simp [decoded, Except.toOption]
      | ok content => simp [decoded, Except.toOption]

end Part

/-- The sections that do not need the program. -/
def leadingLines (c : Container) : List String :=
  c.featureLines ++
    c.signatureLines .inputSignature "Input" .input ++
    c.signatureLines .outputSignature "Output" .output ++
    c.signatureLines .patchConstantSignature "Patch Constant" .output

theorem writeLeading_eq (c : Container) (r : Report) :
    c.writeLeading r = r.lines c.leadingLines := by
  simp only [writeLeading, registerTables, List.foldl_cons, List.foldl_nil, writePart_eq,
    Report.lines_lines]
  rfl

theorem lines_eq (c : Container) (stage : Stage) :
    c.lines stage = c.leadingLines ++ c.runtimeInfoLines stage := rfl

/-- Where there is a plain program, the part that the pass selects is the one whose
payload is parsed. -/
theorem program_of_find? {c : Container} {plain : Part} (h : c.find? .program = some plain)
    (preferDebug : Bool) :
    ∃ p, (if preferDebug then c.findPreferring? .debugProgram .program
          else c.find? .program) = some p ∧
      c.program preferDebug =
        match Program.parse (c.payload p) with
        | .error fault => .error (.malformed (.program fault))
        | .ok program => .ok program := by
  rw [program, payload?, payload?, findPreferring?, h]
  cases preferDebug with
  | false => exact ⟨plain, rfl, rfl⟩
  | true =>
      cases c.find? .debugProgram with
      | none => exact ⟨plain, rfl, rfl⟩
      | some debug => exact ⟨debug, rfl, rfl⟩

theorem program_congr {c d : Container} (plain : c.payload? .program = d.payload? .program)
    (debug : c.payload? .debugProgram = d.payload? .debugProgram) (preferDebug : Bool) :
    c.program preferDebug = d.program preferDebug := by
  rw [program, plain, debug, program]

/-- What one pass leaves behind: a fatal error ends it in front of the last section. -/
theorem writeSections_eq (c : Container) (preferDebug : Bool) (r : Report) :
    c.writeSections preferDebug r =
      match c.program preferDebug with
      | .error e => (r.lines c.leadingLines, .error e)
      | .ok program => (r.lines (c.lines program.stage), .ok program.bitcode) := by
  unfold writeSections
  cases found : c.find? .program with
  | none =>
      rw [program, payload?, found, writeLeading_eq]
      rfl
  | some plain =>
      -- the second complaint about a missing program cannot come up any more
      obtain ⟨p, selected, parsed⟩ := program_of_find? found preferDebug
      rw [found] at selected
      rw [selected, parsed, writeLeading_eq]
      simp only [Option.isNone_some, Bool.false_eq_true, if_false, writePart_eq,
        Report.lines_lines]
      cases Program.parse (c.payload p) with
      | error fault => rfl
      | ok program => rfl

end Container

/-- A report that holds the sections is finished as `render` does it. -/
theorem Report.finish_eq (marker : Char) (loader : Loader) (source : Source) :
    (Report.lines { marker } source.lines).finish loader source.bitcode =
      match loader source.bitcode "" with
      | .error cause => .error (.load cause)
      | .ok m => .ok (render marker source m) := by
  rw [finish]
  cases loader source.bitcode "" with
  | error cause => rfl
  | ok m =>
      simp only [write_eq]
      rfl

/-- The order in which the sections are written makes no difference to the result. -/
theorem disassembleInOrder_eq (options : Options) (loader : Loader) (input : Bytes) :
    disassembleInOrder options loader input = disassemble options loader input := by
  have bare : ∀ bitcode, Report.finish { marker := options.marker } loader bitcode =
      match loader bitcode "" with
      | .error cause => .error (.load cause)
      | .ok m => .ok (render options.marker ⟨[], bitcode⟩ m) := by
    intro bitcode
    have empty := Report.finish_eq options.marker loader ⟨[], bitcode⟩
    rwa [Report.lines_nil] at empty
  rw [disassembleInOrder, disassemble, Source.ofInput]
  cases Container.parse? input with
  | error fault => rfl
  | ok found =>
      cases found with
      | none =>
          cases Program.parse input with
          | error fault => exact bare input
          | ok program => exact bare program.bitcode
      | some c =>
          simp only [Container.writeSections_eq]
          cases c.program options.preferDebug with
          | error e => rfl
          | ok program =>
              exact Report.finish_eq options.marker loader
                ⟨c.lines program.stage, program.bitcode⟩

/-! ## Containers that are reported alike -/

namespace Container

/-- What one pass asks of a container is the same for both: the program, and what the
part of each section decodes to. -/
structure Alike (preferDebug : Bool) (c d : Container) : Prop where
  program : c.program preferDebug = d.program preferDebug
  features : c.decoded? .featureInfo FeatureInfo.parse = d.decoded? .featureInfo FeatureInfo.parse
  signatures : ∀ tag ∈ [Tag.inputSignature, .outputSignature, .patchConstantSignature],
    c.decoded? tag RegisterSignature.parse = d.decoded? tag RegisterSignature.parse
  runtimeInfo : ∀ p, c.program preferDebug = .ok p →
    c.decoded? .runtimeInfo (RuntimeInfo.parse · p.stage) =
      d.decoded? .runtimeInfo (RuntimeInfo.parse · p.stage)

variable {preferDebug : Bool} {c d : Container}

theorem Alike.leadingLines_eq (h : Alike preferDebug c d) : c.leadingLines = d.leadingLines := by
  simp only [leadingLines, featureLines, signatureLines, partLines_eq, h.features,
    h.signatures .inputSignature (by simp), h.signatures .outputSignature (by simp),
    h.signatures .patchConstantSignature (by simp)]

theorem Alike.lines_eq (h : Alike preferDebug c d) {p : Program}
    (hp : c.program preferDebug = .ok p) : c.lines p.stage = d.lines p.stage := by
  rw [Container.lines_eq, Container.lines_eq, h.leadingLines_eq, runtimeInfoLines, partLines_eq,
    h.runtimeInfo p hp, runtimeInfoLines, partLines_eq]

/-- The same report and the same outcome are left behind, fatal errors included. -/
theorem Alike.writeSections_eq (h : Alike preferDebug c d) (r : Report) :
    c.writeSections preferDebug r = d.writeSections preferDebug r := by
  rw [Container.writeSections_eq, Container.writeSections_eq, h.leadingLines_eq, ← h.program]
  cases found : c.program preferDebug with
  | error e => rfl
  | ok p => simp only [h.lines_eq found]

theorem Alike.disassemble_eq {options : Options} {a b : Bytes}
    (h : Alike options.preferDebug c d) (ha : parse? a = .ok (some c))
    (hb : parse? b = .ok (some d)) (loader : Loader) :
    disassemble options loader a = disassemble options loader b := by
  -- in the one pass the containers are only ever given to `writeSections`
  rw [← disassembleInOrder_eq, ← disassembleInOrder_eq, disassembleInOrder, disassembleInOrder,
    ha, hb]
  simp only [h.writeSections_eq]

end Container

end ShaderReport
