/-
# What a report depends on

Three statements about pairs of inputs, each of them read off `Alike`.

* A container is seen through seven names only, and of each name only through the first
  payload (`disassemble_eq_of_sameFirst`).  Order, offsets, overlaps, repetitions, other
  names and the header do not show, so rebuilding a container from its parts does not
  show either.
* A part that does not decode is as good as none (`disassemble_without_undecodable`).
  Taking it out moves every part behind it; that this does not show is the first
  statement's business, and what is left is that nothing is decoded in either case.
* The digest, the minor version and bytes behind the declared size do not show
  (`disassemble_ignores_unread`): the parts are the same, and with them the payloads.
-/
import ShaderReport.Proofs.Container.Unread
import ShaderReport.Proofs.Disassembly.Failure

namespace ShaderReport

/-- The names of the parts that a report is made from. -/
def Tag.reported : List Tag :=
  [.featureInfo, .inputSignature, .outputSignature, .patchConstantSignature, .runtimeInfo,
   .program, .debugProgram]

open Container

/-! ## Seven look-ups -/

theorem Container.decoded?_congr {ε α : Type} {c d : Container} {tag : Tag}
    (h : c.payload? tag = d.payload? tag) (decode : Bytes → Except ε α) :
    c.decoded? tag decode = d.decoded? tag decode := by
  rw [decoded?, h, decoded?]

theorem Container.alike_of_payload? {c d : Container}
    (h : ∀ tag ∈ Tag.reported, c.payload? tag = d.payload? tag) (preferDebug : Bool) :
    Alike preferDebug c d where
  program := program_congr (h .program (by decide)) (h .debugProgram (by decide)) preferDebug
  features := decoded?_congr (h .featureInfo (by decide)) _
  signatures := by
    intro tag member
    have reported : [Tag.inputSignature, .outputSignature, .patchConstantSignature] ⊆
        Tag.reported := by decide
    exact decoded?_congr (h tag (reported member)) _
  runtimeInfo := fun _ _ => decoded?_congr (h .runtimeInfo (by decide)) _

theorem disassemble_congr {a b : Bytes} {c d : Container} (ha : parse? a = .ok (some c))
    (hb : parse? b = .ok (some d))
    (same : ∀ tag ∈ Tag.reported, first? c.pairs tag = first? d.pairs tag) (options : Options)
    (loader : Loader) : disassemble options loader a = disassemble options loader b := by
  have alike : Alike options.preferDebug c d := by
    refine alike_of_payload? ?_ options.preferDebug
    intro tag member
    rw [payload?_eq, payload?_eq]
    exact same tag member
  exact alike.disassemble_eq ha hb loader

/-- Containers that agree on the first payload of each of the seven names have the same
result, and so have a container and the one built from its parts. -/
theorem disassemble_eq_of_sameFirst (options : Options) (loader : Loader) :
    (∀ (a b : Bytes) (c d : Container), parse? a = .ok (some c) → parse? b = .ok (some d) →
      (∀ tag ∈ Tag.reported, SameFirst c.pairs d.pairs tag) →
      disassemble options loader a = disassemble options loader b) ∧
    ∀ (a : Bytes) (c : Container), parse a = .ok c → Buildable c.pairs →
      disassemble options loader (build c.pairs) = disassemble options loader a := by
  constructor
  · intro a b c d ha hb same
    refine disassemble_congr ha hb ?_ options loader
    intro tag member
    exact sameFirst_iff.mp (same tag member)
  · intro a c parsed limits
    have ha : parse? a = .ok (some c) :=
      parse?_eq_some_iff.mpr (parse_eq_ok_iff_wellFormed.mp parsed)
    refine disassemble_congr limits.parse?_build ha ?_ options loader
    intro tag _
    rw [limits.pairs_build]

/-- A container whose two table entries lead to one part. -/
def overlapping : Bytes :=
  fixedBytes ++ (Bytes.ofNatLE 4 76 ++ Bytes.ofNatLE 4 2) ++
    (Bytes.ofNatLE 4 40 ++ Bytes.ofNatLE 4 40) ++ partBytes (.program, smallProgram)

/-- Two orders, with a strange name in front and a broken repetition behind; and a part
held twice, which is written twice when the container is rebuilt. -/
theorem disassemble_rearranged :
    disassemble {} Loader.undecoded
        (build [(.featureInfo, FeatureInfo.build 1), (.program, smallProgram)]) =
      disassemble {} Loader.undecoded
        (build [(⟨0, 1, 2, 3⟩, [7]), (.program, smallProgram),
          (.featureInfo, FeatureInfo.build 1), (.featureInfo, [])]) ∧
    disassemble {} Loader.undecoded
        (build [(.program, smallProgram), (.program, smallProgram)]) =
      disassemble {} Loader.undecoded overlapping := by
  obtain ⟨rearranged, rebuilt⟩ := disassemble_eq_of_sameFirst {} Loader.undecoded
  constructor
  · have limits : Buildable [(.featureInfo, FeatureInfo.build 1), (.program, smallProgram)] := by
      decide
    have limits' : Buildable [(⟨0, 1, 2, 3⟩, [7]), (.program, smallProgram),
        (.featureInfo, FeatureInfo.build 1), (.featureInfo, [])] := by
      decide
    refine rearranged _ _ _ _ limits.parse?_build limits'.parse?_build ?_
    rw [limits.pairs_build, limits'.pairs_build]
    simp only [sameFirst_iff]
    decide
  · have parsed : parse overlapping = .ok ⟨Header.read overlapping, overlapping,
        [⟨.program, 40, 28⟩, ⟨.program, 40, 28⟩]⟩ := rfl
    have held : (⟨Header.read overlapping, overlapping,
        [⟨.program, 40, 28⟩, ⟨.program, 40, 28⟩]⟩ : Container).pairs =
        [(.program, smallProgram), (.program, smallProgram)] := rfl
    have same := rebuilt _ _ parsed
    rw [held] at same
    exact same (by decide)

/-! ## A part that does not decode -/

/-- The decoder of a section refuses the payload.  Pipeline facts are decoded for the
stage of the program that counts, if there is one. -/
inductive Undecodable (preferDebug : Bool) (parts : List (Tag × Bytes)) : Tag → Bytes → Prop
  | features {payload : Bytes} {fault : FeatureFault} : FeatureInfo.parse payload = .error fault →
      Undecodable preferDebug parts .featureInfo payload
  | signature {tag : Tag} {payload : Bytes} {fault : SignatureFault} :
      tag ∈ [Tag.inputSignature, .outputSignature, .patchConstantSignature] →
      RegisterSignature.parse payload = .error fault → Undecodable preferDebug parts tag payload
  | runtimeInfo {payload : Bytes} :
      (∀ selected program, ¬ Lacks parts .program → Selected preferDebug parts selected →
        Program.parse selected = .ok program →
        ∃ fault, RuntimeInfo.parse payload program.stage = .error fault) →
      Undecodable preferDebug parts .runtimeInfo payload

section Undecodable

variable {preferDebug : Bool} {parts : List (Tag × Bytes)} {tag : Tag} {payload : Bytes}
  (bad : Undecodable preferDebug parts tag payload)
include bad

theorem Undecodable.ne_program : Tag.program ≠ tag ∧ Tag.debugProgram ≠ tag := by
  cases bad with
  | features _ => decide
  | runtimeInfo _ => decide
  | signature member _ =>
      simp only [List.mem_cons, List.not_mem_nil, or_false] at member
      rcases member with rfl | rfl | rfl <;> decide

theorem Undecodable.feature_error (h : tag = .featureInfo) :
    ∃ fault, FeatureInfo.parse payload = .error fault := by
  cases bad with
  | features failed => exact ⟨_, failed⟩
  | runtimeInfo _ => exact absurd h (by decide)
  | signature member _ =>
      subst h
      exact absurd member (by decide)

theorem Undecodable.signature_error
    (h : tag ∈ [Tag.inputSignature, .outputSignature, .patchConstantSignature]) :
    ∃ fault, RegisterSignature.parse payload = .error fault := by
  cases bad with
  | features _ => exact absurd h (by decide)
  | runtimeInfo _ => exact absurd h (by decide)
  | signature _ failed => exact ⟨_, failed⟩

theorem Undecodable.runtimeInfo_error (h : tag = .runtimeInfo) {selected : Bytes}
    {program : Program} (there : ¬ Lacks parts .program)
    (hs : Selected preferDebug parts selected) (hp : Program.parse selected = .ok program) :
    ∃ fault, RuntimeInfo.parse payload program.stage = .error fault := by
  cases bad with
  | features _ => exact absurd h (by decide)
  | runtimeInfo failed => exact failed selected program there hs hp
  | signature member _ =>
      subst h
      exact absurd member (by decide)

end Undecodable

namespace Container

section Without

variable {c d : Container} {tag : Tag} {payload : Bytes} (held : d.pairs = without tag c.pairs)
  (first : IsFirst c.pairs tag payload)
include held

theorem payload?_of_without {other : Tag} (h : other ≠ tag) :
    c.payload? other = d.payload? other := by
  rw [payload?_eq, payload?_eq, held, first?_without_of_ne h]

include first

/-- Absent and undecodable decode to the same, which is nothing. -/
theorem decoded?_of_without {ε α : Type} {other : Tag} {decode : Bytes → Except ε α}
    (refused : tag = other → ∃ fault, decode payload = .error fault) :
    c.decoded? other decode = d.decoded? other decode := by
  by_cases same : tag = other
  · obtain ⟨fault, failed⟩ := refused same
    subst same
    rw [decoded?, decoded?, payload?_eq, payload?_eq, held, first?_without_self,
      first?_eq_some_iff.mpr first]
    simp [failed, Except.toOption]
  · exact decoded?_congr (payload?_of_without held (Ne.symm same)) decode

theorem alike_of_without {preferDebug : Bool} (bad : Undecodable preferDebug c.pairs tag payload) :
    Alike preferDebug c d where
  program := program_congr (payload?_of_without held bad.ne_program.1)
    (payload?_of_without held bad.ne_program.2) preferDebug
  features := decoded?_of_without held first bad.feature_error
  signatures := by
    intro other member
    refine decoded?_of_without held first ?_
    intro same
    exact bad.signature_error (same ▸ member)
  runtimeInfo := by
    -- the stage is that of the program found, so the refusal is for the part it came from
    intro program found
    obtain ⟨there, selected, hs, hp⟩ := selected_of_program found
    refine decoded?_of_without held first ?_
    intro same
    exact bad.runtimeInfo_error same there hs hp

end Without

end Container

/-- Taking out all parts of a name whose first part does not decode changes neither the
result nor, in a pass that writes section after section, the report that is there at
its end or at a fatal error. -/
theorem disassemble_without_undecodable {options : Options} (loader : Loader)
    {parts : List (Tag × Bytes)} {tag : Tag} {payload : Bytes} (limits : Buildable parts)
    (first : IsFirst parts tag payload) (bad : Undecodable options.preferDebug parts tag payload) :
    disassemble options loader (build parts) =
      disassemble options loader (build (without tag parts)) ∧
    disassembleInOrder options loader (build parts) = disassemble options loader (build parts) ∧
    ∃ c d, parse (build parts) = .ok c ∧ parse (build (without tag parts)) = .ok d ∧
      ∀ report, c.writeSections options.preferDebug report =
        d.writeSections options.preferDebug report := by
  have limits' := limits.without tag
  have parsed := limits.parse?_build
  have parsed' := limits'.parse?_build
  have held : (ofBytes (build (without tag parts))).pairs =
      without tag (ofBytes (build parts)).pairs := by
    rw [limits'.pairs_build, limits.pairs_build]
  have alike : Alike options.preferDebug (ofBytes (build parts))
      (ofBytes (build (without tag parts))) := by
    rw [← limits.pairs_build] at first bad
    exact alike_of_without held first bad
  refine ⟨alike.disassemble_eq parsed parsed' loader, disassembleInOrder_eq .., ?_⟩
  exact ⟨_, _, parse_eq_ok_iff_wellFormed.mpr (parse?_eq_some_iff.mp parsed),
    parse_eq_ok_iff_wellFormed.mpr (parse?_eq_some_iff.mp parsed'), alike.writeSections_eq⟩

/-- A signature of two elements.  The first one has the name `A`; the name of the second
would stand past the end. -/
def halfDecoded : Bytes :=
  Bytes.ofNatLE 4 2 ++ Bytes.ofNatLE 4 8 ++
    (Bytes.ofNatLE 4 0 ++ Bytes.ofNatLE 4 72 ++ List.replicate 24 0) ++
    (Bytes.ofNatLE 4 0 ++ Bytes.ofNatLE 4 255 ++ List.replicate 24 0) ++ [65, 0]

/-- The half of a table, and behind the program a sound one. -/
def halfSigned : List (Tag × Bytes) :=
  [(.inputSignature, halfDecoded), (.program, smallProgram),
   (.inputSignature, RegisterSignature.build [])]

/-- The sound table does not take the other's place, so both can go. -/
theorem disassemble_halfSigned :
    IsFirst halfSigned .inputSignature halfDecoded ∧
      Undecodable true halfSigned .inputSignature halfDecoded ∧
      disassemble {} Loader.undecoded (build halfSigned) =
        disassemble {} Loader.undecoded (build [(.program, smallProgram)]) := by
  have first : IsFirst halfSigned .inputSignature halfDecoded := first?_eq_some_iff.mp rfl
  have refused : (RegisterSignature.parse halfDecoded).toOption = none := by decide +kernel
  cases parsed : RegisterSignature.parse halfDecoded with
  | ok s =>
      rw [parsed] at refused
      cases refused
  | error fault =>
      have bad : Undecodable true halfSigned .inputSignature halfDecoded :=
        .signature (by decide) parsed
      obtain ⟨same, -⟩ :=
        @disassemble_without_undecodable {} Loader.undecoded _ _ _ (by decide) first bad
      exact ⟨first, bad, same⟩

/-! ## Unread bytes -/

/-- Other bytes in the digest, in the minor version and behind the declared size leave
the size, the number of parts, every part and every result as they are. -/
theorem disassemble_ignores_unread {a b : Bytes} {c : Container} (accepted : parse a = .ok c)
    (long : c.header.size.toNat ≤ b.length)
    (agree : ∀ i < c.header.size.toNat, ¬ (4 ≤ i ∧ i < 20) → ¬ (22 ≤ i ∧ i < 24) →
      b[i]? = a[i]?) :
    ∃ d, parse b = .ok d ∧ d.header.size = c.header.size ∧
      d.header.partCount = c.header.partCount ∧
      (∀ i, (d.part? i).map (fun p => (p.tag, p.offset, d.payload p)) =
        (c.part? i).map fun p => (p.tag, p.offset, c.payload p)) ∧
      ∀ options loader, disassemble options loader b = disassemble options loader a := by
  obtain ⟨formed, rfl⟩ := parse_eq_ok_iff_wellFormed.mp accepted
  have restates : Restates a b := by
    refine ⟨long, ?_⟩
    intro i below read
    exact agree i below (fun digest => read (Or.inl digest)) (fun minor => read (Or.inr minor))
  have formed' := restates.wellFormed formed
  refine ⟨ofBytes b, parse_eq_ok_iff_wellFormed.mpr ⟨formed', rfl⟩,
    restates.size_eq formed.toHeaderFits, restates.partCount_eq formed.toHeaderFits, ?_, ?_⟩
  · intro i
    rw [part?, part?, restates.parts_eq formed]
    cases found : (ofBytes a).parts[i]? with
    | none => rfl
    | some p =>
        have same := restates.payload_eq formed (List.mem_of_getElem? found)
        simp only [Option.map_some, same]
  · refine disassemble_congr (parse?_eq_some_iff.mpr ⟨formed', rfl⟩)
      (parse?_eq_some_iff.mpr ⟨formed, rfl⟩) ?_
    intro tag _
    exact congrArg (first? · tag) (restates.partsOf_eq formed)

/-- A container with every unread byte changed, and bytes behind it. -/
def stamped : Bytes :=
  patch (patch (build [(.program, smallProgram)]) 4 (List.replicate 16 255)) 22 [9, 9] ++ [68, 88]

theorem disassemble_stamped :
    ∃ c d, parse (build [(.program, smallProgram)]) = .ok c ∧ parse stamped = .ok d ∧
      c.header.digest ≠ d.header.digest ∧ c.header.minor ≠ d.header.minor ∧
      disassemble {} Loader.undecoded stamped =
        disassemble {} Loader.undecoded (build [(.program, smallProgram)]) := by
  have accepted : parse (build [(.program, smallProgram)]) =
      .ok ⟨Header.read (build [(.program, smallProgram)]), build [(.program, smallProgram)],
        [⟨.program, 36, 28⟩]⟩ := rfl
  obtain ⟨d, parsed, -, -, -, same⟩ :=
    disassemble_ignores_unread (b := stamped) accepted (by decide +kernel) (by decide +kernel)
  obtain ⟨-, rfl⟩ := parse_eq_ok_iff_wellFormed.mp parsed
  exact ⟨_, _, accepted, parsed, by decide +kernel, by decide +kernel, same {} Loader.undecoded⟩

end ShaderReport
