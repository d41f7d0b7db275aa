/-
# When there is no disassembly

Four things are fatal, and each of them is said here of the input alone:

    BrokenContainer     it announces a container and does not have the format
    MissesProgram       it is a container without a program part
    BrokenProgram       it is a container, and the selected program does not parse
    a loader's refusal  none of these, and the loader refuses the chosen bitcode

`Selected` and `Chosen` are the two choices on the way: which program part of a
container counts, and which bytes of an input go to the loader.  They are relations on
the named payloads and the bytes, not searches.

`Rejected` gives the errors before loading as rules, and `Source.ofInput` answers with
an error exactly if a rule gives it (`ofInput_eq_error_iff`); with a bitcode exactly
if it is chosen (`exists_ofInput_iff`).  All of `disassemble_fails_iff` is read off these
two.  That the rules exclude one another is not proved apart: a function has only one
value.

The parts behind the sections appear in none of the rules, so a payload that does not
decode is never the reason for an error.
-/
import ShaderReport.Proofs.Container.Contents
import ShaderReport.Proofs.Disassembly.Sections

namespace ShaderReport

open Container

/-! ## The choices -/

/-- The payload of the program part that counts: the debug program if it is preferred
and there is one, else the plain one. -/
inductive Selected (preferDebug : Bool) (parts : List (Tag × Bytes)) : Bytes → Prop
  | debug {payload : Bytes} : preferDebug = true → IsFirst parts .debugProgram payload →
      Selected preferDebug parts payload
  | plain {payload : Bytes} : (preferDebug = true → Lacks parts .debugProgram) →
      IsFirst parts .program payload → Selected preferDebug parts payload

/-- The bytes that go to the loader. -/
inductive Chosen (preferDebug : Bool) (input : Bytes) : Bytes → Prop
  | inContainer {payload : Bytes} {program : Program} : WellFormed input →
      ¬ Lacks (partsOf input) .program → Selected preferDebug (partsOf input) payload →
      Program.parse payload = .ok program → Chosen preferDebug input program.bitcode
  | bareProgram {program : Program} : input.take 4 ≠ Tag.container.toBytes →
      Program.parse input = .ok program → Chosen preferDebug input program.bitcode
  | bareBitcode {fault : ProgramFault} : input.take 4 ≠ Tag.container.toBytes →
      Program.parse input = .error fault → Chosen preferDebug input input

/-! ## The program of a container -/

theorem exists_selected {parts : List (Tag × Bytes)} (h : ¬ Lacks parts .program)
    (preferDebug : Bool) : ∃ payload, Selected preferDebug parts payload := by
  obtain ⟨plain, hp⟩ := exists_isFirst h
  by_cases debug : preferDebug = true ∧ ¬ Lacks parts .debugProgram
  · obtain ⟨payload, hd⟩ := exists_isFirst debug.2
    exact ⟨payload, .debug debug.1 hd⟩
  · refine ⟨plain, .plain ?_ hp⟩
    intro preferred
    by_contra there
    exact debug ⟨preferred, there⟩

theorem program_of_lacks {c : Container} (h : Lacks c.pairs .program) (preferDebug : Bool) :
    c.program preferDebug = .error (.missingPart .program) := by
  rw [Container.program, payload?_eq, first?_eq_none_iff.mpr h]

theorem program_of_selected {c : Container} {preferDebug : Bool} {payload : Bytes}
    (there : ¬ Lacks c.pairs .program) (h : Selected preferDebug c.pairs payload) :
    c.program preferDebug =
      match Program.parse payload with
      | .error fault => .error (.malformed (.program fault))
      | .ok program => .ok program := by
  obtain ⟨plain, hp⟩ := exists_isFirst there
  have plain_eq := first?_eq_some_iff.mpr hp
  rw [Container.program, payload?_eq, payload?_eq, plain_eq]
  cases h with
  | debug preferred hd =>
      rw [preferred, first?_eq_some_iff.mpr hd]
      rfl
  | plain without first =>
      -- the payload is the plain one: there is only one first
      rw [first?_eq_some_iff.mpr first] at plain_eq
      cases plain_eq
      cases preferDebug with
      | false => rfl
      | true =>
          rw [first?_eq_none_iff.mpr (without rfl)]
          rfl

/-- The program that is found was parsed from the selected part. -/
theorem selected_of_program {c : Container} {preferDebug : Bool} {program : Program}
    (h : c.program preferDebug = .ok program) :
    ¬ Lacks c.pairs .program ∧
      ∃ selected, Selected preferDebug c.pairs selected ∧ Program.parse selected = .ok program := by
  by_cases lacks : Lacks c.pairs .program
  · rw [program_of_lacks lacks] at h
    cases h
  · obtain ⟨selected, hs⟩ := exists_selected lacks preferDebug
    rw [program_of_selected lacks hs] at h
    refine ⟨lacks, selected, hs, ?_⟩
    cases parsed : Program.parse selected with
    | error fault =>
        rw [parsed] at h
        cases h
    | ok p =>
        rw [parsed] at h
        cases h
        rfl

/-! ## Errors before loading -/

/-- The errors that are found before any bitcode is loaded, one rule each. -/
inductive Rejected (preferDebug : Bool) (input : Bytes) : DisassemblyError → Prop
  | container {fault : ContainerFault} : input.take 4 = Tag.container.toBytes →
      Container.parse input = .error fault →
      Rejected preferDebug input (.malformed (.container fault))
  | missing : WellFormed input → Lacks (partsOf input) .program →
      Rejected preferDebug input (.missingPart .program)
  | program {payload : Bytes} {fault : ProgramFault} : WellFormed input →
      ¬ Lacks (partsOf input) .program → Selected preferDebug (partsOf input) payload →
      Program.parse payload = .error fault →
      Rejected preferDebug input (.malformed (.program fault))

section OfInput

variable {preferDebug : Bool} {input : Bytes}

theorem ofInput_of_wellFormed (h : WellFormed input) :
    Source.ofInput preferDebug input =
      ((ofBytes input).program preferDebug).map fun program =>
        ⟨(ofBytes input).lines program.stage, program.bitcode⟩ := by
  rw [Source.ofInput, parse?_eq_some_iff.mpr ⟨h, rfl⟩]
  dsimp only
  cases (ofBytes input).program preferDebug with
  | error e => rfl
  | ok program => rfl

/-- Every input is rejected by a rule or has its bitcode chosen. -/
theorem ofInput_spec (preferDebug : Bool) (input : Bytes) :
    match Source.ofInput preferDebug input with
    | .error e => Rejected preferDebug input e
    | .ok source => Chosen preferDebug input source.bitcode := by
  cases parsed : Container.parse? input with
  | error fault =>
      obtain ⟨announced, broken⟩ := parse?_eq_error_iff.mp parsed
      rw [Source.ofInput, parsed]
      exact .container announced broken
  | ok found =>
      cases found with
      | none =>
          have bare := parse?_eq_none_iff.mp parsed
          rw [Source.ofInput, parsed]
          cases program : Program.parse input with
          | error fault => exact .bareBitcode bare program
          | ok p => exact .bareProgram bare program
      | some c =>
          obtain ⟨formed, -⟩ := parse?_eq_some_iff.mp parsed
          rw [ofInput_of_wellFormed formed]
          by_cases lacks : Lacks (partsOf input) .program
          · rw [program_of_lacks lacks]
            exact .missing formed lacks
          · obtain ⟨payload, selected⟩ := exists_selected lacks preferDebug
            rw [program_of_selected lacks selected]
            cases program : Program.parse payload with
            | error fault => exact .program formed lacks selected program
            | ok p => exact .inContainer formed lacks selected program

theorem Rejected.ofInput_eq {e : DisassemblyError} (h : Rejected preferDebug input e) :
    Source.ofInput preferDebug input = .error e := by
  cases h with
  | container announced broken =>
      rw [Source.ofInput, parse?_eq_error_iff.mpr ⟨announced, broken⟩]
  | missing formed lacks =>
      rw [ofInput_of_wellFormed formed, program_of_lacks lacks]
      rfl
  | program formed there selected broken =>
      rw [ofInput_of_wellFormed formed, program_of_selected there selected, broken]
      rfl

theorem Chosen.ofInput_eq {bitcode : Bytes} (h : Chosen preferDebug input bitcode) :
    ∃ source, Source.ofInput preferDebug input = .ok source ∧ source.bitcode = bitcode := by
  cases h with
  | inContainer formed there selected parsed =>
      rw [ofInput_of_wellFormed formed, program_of_selected there selected, parsed]
      exact ⟨_, rfl, rfl⟩
  | bareProgram bare parsed =>
      rw [Source.ofInput, parse?_eq_none_iff.mpr bare, parsed]
      exact ⟨_, rfl, rfl⟩
  | bareBitcode bare broken =>
      rw [Source.ofInput, parse?_eq_none_iff.mpr bare, broken]
      exact ⟨_, rfl, rfl⟩

theorem ofInput_eq_error_iff {e : DisassemblyError} :
    Source.ofInput preferDebug input = .error e ↔ Rejected preferDebug input e := by
  constructor
  · intro h
    have spec := ofInput_spec preferDebug input
    rwa [h] at spec
  · exact Rejected.ofInput_eq

theorem exists_ofInput_iff {bitcode : Bytes} :
    (∃ source, Source.ofInput preferDebug input = .ok source ∧ source.bitcode = bitcode) ↔
      Chosen preferDebug input bitcode := by
  constructor
  · rintro ⟨source, h, rfl⟩
    have spec := ofInput_spec preferDebug input
    rwa [h] at spec
  · exact Chosen.ofInput_eq

end OfInput

/-! ## The fatal conditions -/

/-- It announces a container and does not have the format of one. -/
def BrokenContainer (input : Bytes) : Prop :=
  input.take 4 = Tag.container.toBytes ∧ ¬ WellFormed input

/-- It is a container without a program part; a debug program does not stand in for it. -/
def MissesProgram (input : Bytes) : Prop :=
  WellFormed input ∧ Lacks (partsOf input) .program

/-- It is a container with a program part, and the selected program does not parse. -/
def BrokenProgram (preferDebug : Bool) (input : Bytes) : Prop :=
  WellFormed input ∧ ¬ Lacks (partsOf input) .program ∧
    ∃ payload fault, Selected preferDebug (partsOf input) payload ∧
      Program.parse payload = .error fault

/-- Nothing is wrong before loading. -/
def Loadable (preferDebug : Bool) (input : Bytes) : Prop :=
  ¬ BrokenContainer input ∧ ¬ MissesProgram input ∧ ¬ BrokenProgram preferDebug input

section Conditions

variable {preferDebug : Bool} {input : Bytes}

theorem exists_rejected_container_iff :
    (∃ fault, Rejected preferDebug input (.malformed (.container fault))) ↔
      BrokenContainer input := by
  constructor
  · rintro ⟨fault, h⟩
    cases h with
    | container announced broken =>
        refine ⟨announced, ?_⟩
        intro formed
        rw [parse_eq_ok_iff_wellFormed.mpr ⟨formed, rfl⟩] at broken
        cases broken
  · rintro ⟨announced, malformed⟩
    cases parsed : Container.parse input with
    | error fault => exact ⟨fault, .container announced parsed⟩
    | ok c => exact absurd (parse_eq_ok_iff_wellFormed.mp parsed).1 malformed

theorem rejected_missingPart_iff {tag : Tag} :
    Rejected preferDebug input (.missingPart tag) ↔ tag = .program ∧ MissesProgram input := by
  constructor
  · intro h
    cases h with
    | missing formed lacks => exact ⟨rfl, formed, lacks⟩
  · rintro ⟨rfl, formed, lacks⟩
    exact .missing formed lacks

theorem exists_rejected_program_iff :
    (∃ fault, Rejected preferDebug input (.malformed (.program fault))) ↔
      BrokenProgram preferDebug input := by
  constructor
  · rintro ⟨fault, h⟩
    cases h with
    | program formed there selected broken =>
        exact ⟨formed, there, _, fault, selected, broken⟩
  · rintro ⟨formed, there, payload, fault, selected, broken⟩
    exact ⟨fault, .program formed there selected broken⟩

/-- If nothing is wrong, no rule rejects the input; if no rule does, bitcode is chosen. -/
theorem loadable_iff : Loadable preferDebug input ↔ ∀ e, ¬ Rejected preferDebug input e := by
  constructor
  · rintro ⟨container, missing, program⟩ e h
    cases h with
    | container announced broken =>
        have rejected : Rejected preferDebug input _ := .container announced broken
        exact container (exists_rejected_container_iff.mp ⟨_, rejected⟩)
    | missing formed lacks => exact missing ⟨formed, lacks⟩
    | program formed there selected broken =>
        exact program ⟨formed, there, _, _, selected, broken⟩
  · intro none
    refine ⟨?_, ?_, ?_⟩
    · intro broken
      obtain ⟨fault, h⟩ := exists_rejected_container_iff.mpr broken
      exact none _ h
    · intro missing
      exact none _ (rejected_missingPart_iff.mpr ⟨rfl, missing⟩)
    · intro broken
      obtain ⟨fault, h⟩ := exists_rejected_program_iff.mpr broken
      exact none _ h

theorem Chosen.loadable {bitcode : Bytes} (h : Chosen preferDebug input bitcode) :
    Loadable preferDebug input := by
  obtain ⟨source, found, -⟩ := h.ofInput_eq
  refine loadable_iff.mpr ?_
  intro e rejected
  rw [rejected.ofInput_eq] at found
  cases found

/-- An input with nothing wrong has exactly one bitcode. -/
theorem loadable_iff_existsUnique :
    Loadable preferDebug input ↔ ∃! bitcode, Chosen preferDebug input bitcode := by
  constructor
  · intro h
    cases found : Source.ofInput preferDebug input with
    | error e => exact absurd (ofInput_eq_error_iff.mp found) (loadable_iff.mp h e)
    | ok source =>
        refine ⟨source.bitcode, exists_ofInput_iff.mp ⟨source, found, rfl⟩, ?_⟩
        intro bitcode chosen
        obtain ⟨other, hother, rfl⟩ := chosen.ofInput_eq
        rw [found] at hother
        cases hother
        rfl
  · rintro ⟨bitcode, chosen, -⟩
    exact chosen.loadable

end Conditions

/-! ## Disassembly -/

section Result

variable {options : Options} {loader : Loader} {input : Bytes}

/-- An error is one of the rules' or the loader's. -/
theorem disassemble_eq_error_iff {e : DisassemblyError} :
    disassemble options loader input = .error e ↔
      Rejected options.preferDebug input e ∨
        ∃ bitcode cause, e = .load cause ∧ Chosen options.preferDebug input bitcode ∧
          loader bitcode "" = .error cause := by
  rw [disassemble]
  cases found : Source.ofInput options.preferDebug input with
  | error e' =>
      have rejected := ofInput_eq_error_iff.mp found
      constructor
      · intro h
        cases h
        exact Or.inl rejected
      · rintro (h | ⟨bitcode, cause, -, chosen, -⟩)
        · rw [h.ofInput_eq] at found
          cases found
          rfl
        · exact absurd rejected (loadable_iff.mp chosen.loadable e')
  | ok source =>
      -- the loader is asked about the one bitcode there is to choose
      have chosen := exists_ofInput_iff.mp ⟨source, found, rfl⟩
      constructor
      · intro h
        cases loaded : loader source.bitcode "" with
        | error cause =>
            simp only [loaded] at h
            cases h
            exact Or.inr ⟨source.bitcode, cause, rfl, chosen, loaded⟩
        | ok m =>
            simp only [loaded] at h
            cases h
      · rintro (rejected | ⟨bitcode, cause, rfl, other, refused⟩)
        · exact absurd rejected (loadable_iff.mp chosen.loadable e)
        · obtain ⟨source', found', rfl⟩ := other.ofInput_eq
          rw [found] at found'
          cases found'
          simp only [refused]

theorem disassemble_load_iff {cause : LoadError} :
    disassemble options loader input = .error (.load cause) ↔
      Loadable options.preferDebug input ∧
        ∃ bitcode, Chosen options.preferDebug input bitcode ∧ loader bitcode "" = .error cause := by
  rw [disassemble_eq_error_iff]
  constructor
  · rintro (rejected | ⟨bitcode, _, same, chosen, refused⟩)
    · cases rejected
    · cases same
      exact ⟨chosen.loadable, bitcode, chosen, refused⟩
  · rintro ⟨-, bitcode, chosen, refused⟩
    exact Or.inr ⟨bitcode, cause, rfl, chosen, refused⟩

theorem exists_disassemble_ok_iff :
    (∃ text, disassemble options loader input = .ok text) ↔
      Loadable options.preferDebug input ∧
        ¬ ∃ bitcode cause, Chosen options.preferDebug input bitcode ∧
          loader bitcode "" = .error cause := by
  constructor
  · rintro ⟨text, h⟩
    have no_error : ∀ e, disassemble options loader input ≠ .error e := by
      intro e failed
      rw [failed] at h
      cases h
    refine ⟨loadable_iff.mpr ?_, ?_⟩
    · intro e rejected
      exact no_error e (disassemble_eq_error_iff.mpr (Or.inl rejected))
    · rintro ⟨bitcode, cause, chosen, refused⟩
      exact no_error _
        (disassemble_eq_error_iff.mpr (Or.inr ⟨bitcode, cause, rfl, chosen, refused⟩))
  · rintro ⟨loadable, loads⟩
    cases result : disassemble options loader input with
    | ok text => exact ⟨text, rfl⟩
    | error e =>
        rcases disassemble_eq_error_iff.mp result with rejected | ⟨bitcode, cause, -, refused⟩
        · exact absurd rejected (loadable_iff.mp loadable e)
        · exact absurd ⟨bitcode, cause, refused⟩ loads

/-- Of a container, only the two program parts decide whether there is an error and
which one. -/
theorem disassemble_error_congr {other : Bytes} (h : WellFormed input) (h' : WellFormed other)
    (same : ∀ tag ∈ [Tag.program, .debugProgram], SameFirst (partsOf input) (partsOf other) tag)
    (e : DisassemblyError) :
    disassemble options loader input = .error e ↔ disassemble options loader other = .error e := by
  have program : (ofBytes input).program options.preferDebug =
      (ofBytes other).program options.preferDebug :=
    program_congr (payload?_eq_of_sameFirst (same .program (by simp)))
      (payload?_eq_of_sameFirst (same .debugProgram (by simp))) _
  rw [disassemble, disassemble, ofInput_of_wellFormed h, ofInput_of_wellFormed h', program]
  cases (ofBytes other).program options.preferDebug with
  | error e' => exact Iff.rfl
  | ok p =>
      simp only [Except.map]
      cases loader p.bitcode "" with
      | error cause => exact Iff.rfl
      | ok m => simp

end Result

/-- Exactly the four conditions are fatal, each with its own error, and otherwise there is
a text.  Nothing but the program parts of a container plays a role in it: whatever the
payloads behind the sections are, and whether they decode or not, the errors stay the
same. -/
theorem disassemble_fails_iff (options : Options) (loader : Loader) (input : Bytes) :
    ((∃ fault, disassemble options loader input = .error (.malformed (.container fault))) ↔
      BrokenContainer input) ∧
    (disassemble options loader input = .error (.missingPart .program) ↔ MissesProgram input) ∧
    ((∃ fault, disassemble options loader input = .error (.malformed (.program fault))) ↔
      BrokenProgram options.preferDebug input) ∧
    (∀ cause, disassemble options loader input = .error (.load cause) ↔
      Loadable options.preferDebug input ∧
        ∃ bitcode, Chosen options.preferDebug input bitcode ∧ loader bitcode "" = .error cause) ∧
    ((∃ text, disassemble options loader input = .ok text) ↔
      Loadable options.preferDebug input ∧
        ¬ ∃ bitcode cause, Chosen options.preferDebug input bitcode ∧
          loader bitcode "" = .error cause) ∧
    (Loadable options.preferDebug input ↔ ∃! bitcode, Chosen options.preferDebug input bitcode) ∧
    ∀ other, WellFormed input → WellFormed other →
      (∀ tag ∈ [Tag.program, .debugProgram],
        SameFirst (partsOf input) (partsOf other) tag) →
      ∀ e, disassemble options loader input = .error e ↔
        disassemble options loader other = .error e := by
  refine ⟨?_, ?_, ?_, fun _ => disassemble_load_iff, exists_disassemble_ok_iff,
    loadable_iff_existsUnique, ?_⟩
  · rw [← @exists_rejected_container_iff options.preferDebug input]
    simp [disassemble_eq_error_iff]
  · rw [disassemble_eq_error_iff, rejected_missingPart_iff]
    simp
  · rw [← exists_rejected_program_iff]
    simp [disassemble_eq_error_iff]
  · intro other formed formed' same e
    exact disassemble_error_congr formed formed' same e

/-- A program around nothing but the magic of its bitcode. -/
def smallProgram : Bytes := Program.build .pixel Bitcode.magic

/-- A program, and in front of it one part for each section, none of which decodes. -/
def spoiltParts : List (Tag × Bytes) :=
  [(.featureInfo, [1]), (.inputSignature, [1]), (.outputSignature, []),
   (.patchConstantSignature, [0, 0, 0]), (.runtimeInfo, [9]), (.program, smallProgram)]

/-- It is disassembled, and fails in no way in which its program alone does not. -/
theorem disassemble_spoiltParts :
    (FeatureInfo.parse [1]).toOption = none ∧ (RegisterSignature.parse [1]).toOption = none ∧
    (RegisterSignature.parse []).toOption = none ∧
    (RegisterSignature.parse [0, 0, 0]).toOption = none ∧
    (RuntimeInfo.parse [9] .pixel).toOption = none ∧
    (∃ text, disassemble {} Loader.undecoded (build spoiltParts) = .ok text) ∧
    ∀ e, disassemble {} Loader.undecoded (build spoiltParts) = .error e ↔
      disassemble {} Loader.undecoded (build [(.program, smallProgram)]) = .error e := by
  have limits : Buildable spoiltParts := by decide
  have limits' : Buildable [(.program, smallProgram)] := by decide
  have held : partsOf (build spoiltParts) = spoiltParts := limits.pairs_build
  have held' : partsOf (build [(.program, smallProgram)]) = [(.program, smallProgram)] :=
    limits'.pairs_build
  have formed := (parse?_eq_some_iff.mp limits.parse?_build).1
  have formed' := (parse?_eq_some_iff.mp limits'.parse?_build).1
  have plain : IsFirst spoiltParts .program smallProgram := first?_eq_some_iff.mp rfl
  have selected : Selected true spoiltParts smallProgram :=
    .plain (fun _ => first?_eq_none_iff.mp rfl) plain
  have parsed : Program.parse smallProgram = .ok ⟨⟨0x60⟩, 7, 0x100, 16, Bitcode.magic, .pixel⟩ :=
    rfl
  have chosen : Chosen true (build spoiltParts) Bitcode.magic := by
    refine .inContainer formed ?_ ?_ parsed
    · rw [held]
      exact plain.not_lacks
    · rw [held]
      exact selected
  obtain ⟨-, -, -, -, accepted, unique, errors⟩ :=
    disassemble_fails_iff {} Loader.undecoded (build spoiltParts)
  refine ⟨rfl, rfl, rfl, rfl, rfl, accepted.mpr ⟨chosen.loadable, ?_⟩, ?_⟩
  · rintro ⟨bitcode, cause, other, refused⟩
    obtain ⟨only, -, all⟩ := unique.mp chosen.loadable
    rw [all bitcode other, ← all Bitcode.magic chosen] at refused
    cases refused
  · refine errors _ formed formed' ?_
    rw [held, held']
    intro tag member
    refine sameFirst_iff.mpr ?_
    simp only [List.mem_cons, List.not_mem_nil, or_false] at member
    rcases member with rfl | rfl
    · rfl
    · rfl

end ShaderReport
