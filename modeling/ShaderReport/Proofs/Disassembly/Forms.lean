/-
# Three forms of one input

A program can be given on its own or as the only part of a container, and its bitcode
can be given without any program around it.  Which form an input has is found out by
trial: first a container is looked for, then a program, and what is neither is taken
for bitcode.

The trials cannot go wrong, because all three forms begin with a word of their own.
The first word of a program names a stage in its upper half.  The first words of a
container, of raw bitcode and of wrapped bitcode do not, and no two of them are equal.
So the form that was meant is the form that is found:

    ofInput_program     a program on its own
    ofInput_bitcode     bitcode that the loader accepts
    ofInput_boxed       a program as the only part of a container

All three have no sections and hand the same bitcode on, which makes the results equal
(`disassemble_forms_agree`).
-/
import ShaderReport.Proofs.Disassembly.Failure
import ShaderReport.Proofs.Program.Format
import ShaderReport.Proofs.Program.RoundTrip

namespace ShaderReport

open Container

/-! ## First words -/

/-- The word in front of a string is the number in its first four bytes. -/
theorem Bytes.u32At_front {b front : Bytes} (h : b.take 4 = front) :
    b.u32At 0 = .ofNat (toNatLE front) := by
  rw [u32At, List.drop_zero, h]

/-- A container's name in front names no stage. -/
theorem stage?_of_container {b : Bytes} (h : b.take 4 = Tag.container.toBytes) :
    (Program.versionAt b).stage? = none := by
  rw [Program.versionAt, Bytes.u32At_front h]
  rfl

theorem Program.Fits.not_container {b : Bytes} {stage : Stage} (h : Program.Fits b stage) :
    b.take 4 ≠ Tag.container.toBytes := by
  intro announced
  have found := h.stage
  rw [stage?_of_container announced] at found
  cases found

theorem front_of_checkRaw {b body : Bytes} (h : Bitcode.checkRaw b = .ok body) :
    b.take 4 = Bitcode.magic := by
  unfold Bitcode.checkRaw at h
  split at h
  · cases h
  split at h
  · assumption
  · cases h

/-- Accepted bitcode begins with one of two words. -/
theorem front_of_unwrap {b : Bytes} {u : Bitcode.Unwrapped} (h : Bitcode.unwrap b = .ok u) :
    b.take 4 = Bitcode.magic ∨ b.u32At 0 = Bitcode.wrapperMagic := by
  unfold Bitcode.unwrap at h
  split at h
  · cases h
  split at h
  · cases h
  split at h
  · rename_i wrapper
    exact Or.inr wrapper
  · cases raw : Bitcode.checkRaw b with
    | error cause =>
        rw [raw] at h
        cases h
    | ok body => exact Or.inl (front_of_checkRaw raw)

/-- Accepted bitcode is neither a container nor a program. -/
theorem bare_of_unwrap {b : Bytes} {u : Bitcode.Unwrapped} (h : Bitcode.unwrap b = .ok u) :
    b.take 4 ≠ Tag.container.toBytes ∧ (Program.versionAt b).stage? = none := by
  rcases front_of_unwrap h with raw | wrapped
  · constructor
    · rw [raw]
      decide
    · rw [Program.versionAt, Bytes.u32At_front raw]
      rfl
  · constructor
    · intro announced
      rw [Bytes.u32At_front announced] at wrapped
      exact absurd wrapped (by decide)
    · rw [Program.versionAt, wrapped]
      rfl

theorem length_pos_of_unwrap {b : Bytes} {u : Bitcode.Unwrapped} (h : Bitcode.unwrap b = .ok u) :
    0 < b.length := by
  cases b with
  | nil => cases h
  | cons x b => exact Nat.succ_pos _

/-! ## The form that is found -/

theorem ofInput_program {p : Bytes} {program : Program} (h : Program.parse p = .ok program)
    (preferDebug : Bool) : Source.ofInput preferDebug p = .ok ⟨[], program.bitcode⟩ := by
  have bare := (Program.parse_eq_ok_iff.mp h).1.not_container
  rw [Source.ofInput, parse?_eq_none_iff.mpr bare, h]

theorem ofInput_bitcode {b : Bytes} {u : Bitcode.Unwrapped} (h : Bitcode.unwrap b = .ok u)
    (preferDebug : Bool) : Source.ofInput preferDebug b = .ok ⟨[], b⟩ := by
  obtain ⟨bare, unnamed⟩ := bare_of_unwrap h
  rw [Source.ofInput, parse?_eq_none_iff.mpr bare]
  cases parsed : Program.parse b with
  | error fault => rfl
  | ok program =>
      have named := (Program.parse_eq_ok_iff.mp parsed).1.stage
      rw [unnamed] at named
      cases named

/-- A container of one program has no sections: each of them needs a part of its own. -/
theorem lines_of_boxed {c : Container} {p : Bytes} (held : c.pairs = [(.program, p)])
    (stage : Stage) : c.lines stage = [] := by
  have absent : ∀ tag, tag ≠ .program → c.payload? tag = none := by
    intro tag other
    rw [payload?_eq, held, first?_eq_none_iff]
    intro part member
    rw [List.mem_singleton.mp member]
    exact other.symm
  simp only [Container.lines, featureLines, signatureLines, runtimeInfoLines, partLines,
    absent .featureInfo (by decide), absent .inputSignature (by decide),
    absent .outputSignature (by decide), absent .patchConstantSignature (by decide),
    absent .runtimeInfo (by decide), List.append_nil]

theorem ofInput_boxed {p : Bytes} {program : Program} (limits : Buildable [(.program, p)])
    (h : Program.parse p = .ok program) (preferDebug : Bool) :
    Source.ofInput preferDebug (build [(.program, p)]) = .ok ⟨[], program.bitcode⟩ := by
  have formed := (parse?_eq_some_iff.mp limits.parse?_build).1
  have held := limits.pairs_build
  have plain : IsFirst [(.program, p)] .program p := first?_eq_some_iff.mp rfl
  have selected : Selected preferDebug [(.program, p)] p :=
    .plain (fun _ => first?_eq_none_iff.mp rfl) plain
  rw [← held] at selected
  rw [← held] at plain
  rw [ofInput_of_wellFormed formed, program_of_selected plain.not_lacks selected, h]
  simp only [Except.map, lines_of_boxed held]

/-- A part list of one program is within the limits as soon as its container has a size
of 32 bits. -/
theorem buildable_boxed {p : Bytes} (small : (build [(.program, p)]).length < 4294967296) :
    Buildable [(.program, p)] := by
  refine ⟨Nat.le_of_ble_eq_true rfl, ?_⟩
  rw [length_build, bodyLength_eq_sum] at small
  exact small

/-! ## The results -/

theorem disassemble_of_ofInput {options : Options} {a b : Bytes}
    (same : Source.ofInput options.preferDebug a = Source.ofInput options.preferDebug b)
    (loader : Loader) : disassemble options loader a = disassemble options loader b := by
  rw [disassemble, disassemble, same]

theorem exists_unwrap_of_undecoded {b : Bytes} {name : String} {m : Module}
    (h : Loader.undecoded b name = .ok m) : ∃ u, Bitcode.unwrap b = .ok u := by
  cases unwrapped : Bitcode.unwrap b with
  | error cause =>
      rw [Loader.undecoded, unwrapped] at h
      cases h
  | ok u => exact ⟨u, rfl⟩

theorem exists_disassemble_bitcode (options : Options) {b : Bytes} {u : Bitcode.Unwrapped}
    (h : Bitcode.unwrap b = .ok u) :
    ∃ text, disassemble options Loader.undecoded b = .ok text := by
  rw [disassemble, ofInput_bitcode h]
  simp only [Loader.undecoded, h]
  exact ⟨_, rfl⟩

/-- A program around bitcode is read back, if it fits in a container. -/
theorem exists_parse_boxed (stage : Stage) {bitcode : Bytes} (nonempty : 0 < bitcode.length)
    (small : (build [(.program, Program.build stage bitcode)]).length < 4294967296) :
    ∃ program, Program.parse (Program.build stage bitcode) = .ok program ∧
      program.bitcode = bitcode := by
  have short : Program.builtLength bitcode < 4294967296 := by
    rw [length_build, bodyLength_eq_sum, List.map_singleton, List.sum_singleton,
      Program.length_build] at small
    omega
  obtain ⟨program, parsed, -, same⟩ := Program.exists_parse_build stage [] short nonempty
  rw [List.append_nil] at parsed
  exact ⟨program, parsed, same⟩

/-- A program, and the container it is alone in, have the same result, with any loader.
Accepted bitcode, a program built around it and the container around that program have
the same text. -/
theorem disassemble_forms_agree (options : Options) :
    (∀ (loader : Loader) (p : Bytes) (program : Program), Program.parse p = .ok program →
      (build [(.program, p)]).length < 4294967296 →
      disassemble options loader (build [(.program, p)]) = disassemble options loader p) ∧
    ∀ (stage : Stage) (bitcode : Bytes) (name : String) (m : Module),
      Loader.undecoded bitcode name = .ok m →
      (build [(.program, Program.build stage bitcode)]).length < 4294967296 →
      ∃ text, disassemble options Loader.undecoded bitcode = .ok text ∧
        disassemble options Loader.undecoded (Program.build stage bitcode) = .ok text ∧
        disassemble options Loader.undecoded
          (build [(.program, Program.build stage bitcode)]) = .ok text := by
  have boxed : ∀ (loader : Loader) (p : Bytes) (program : Program),
      Program.parse p = .ok program → (build [(.program, p)]).length < 4294967296 →
      disassemble options loader (build [(.program, p)]) = disassemble options loader p := by
    intro loader p program parsed small
    refine disassemble_of_ofInput ?_ loader
    rw [ofInput_boxed (buildable_boxed small) parsed, ofInput_program parsed]
  refine ⟨boxed, ?_⟩
  intro stage bitcode name m accepted small
  obtain ⟨u, unwrapped⟩ := exists_unwrap_of_undecoded accepted
  obtain ⟨program, parsed, same⟩ :=
    exists_parse_boxed stage (length_pos_of_unwrap unwrapped) small
  have built : disassemble options Loader.undecoded (Program.build stage bitcode) =
      disassemble options Loader.undecoded bitcode := by
    refine disassemble_of_ofInput ?_ Loader.undecoded
    rw [ofInput_program parsed, ofInput_bitcode unwrapped, same]
  obtain ⟨text, result⟩ := exists_disassemble_bitcode options unwrapped
  refine ⟨text, result, built.trans result, ?_⟩
  rw [boxed _ _ _ parsed small, built, result]

/-- Wrapped bitcode of a length that is no whole number of words. -/
def wrappedBitcode : Bytes :=
  Bytes.ofUInt32 Bitcode.wrapperMagic ++ Bytes.ofNatLE 4 0 ++ Bytes.ofNatLE 4 20 ++
    Bytes.ofNatLE 4 5 ++ Bytes.ofNatLE 4 7 ++ Bitcode.magic ++ [1]

/-- A loader that takes anything, and names the module after its length. -/
def Loader.measuring : Loader := fun bitcode _ => .ok { name := bitcode.length.repr }

/-- A program with a byte behind it, and a program around wrapped bitcode. -/
theorem disassemble_forms_agree_wrapped :
    disassemble ⟨'#', false⟩ Loader.measuring (build [(.program, smallProgram ++ [9])]) =
      disassemble ⟨'#', false⟩ Loader.measuring (smallProgram ++ [9]) ∧
    wrappedBitcode.length % 4 = 1 ∧
    ∃ text, disassemble ⟨'#', false⟩ Loader.undecoded wrappedBitcode = .ok text ∧
      disassemble ⟨'#', false⟩ Loader.undecoded (Program.build .hull wrappedBitcode) = .ok text ∧
      disassemble ⟨'#', false⟩ Loader.undecoded
        (build [(.program, Program.build .hull wrappedBitcode)]) = .ok text := by
  obtain ⟨boxed, built⟩ := disassemble_forms_agree ⟨'#', false⟩
  have parsed : Program.parse (smallProgram ++ [9]) =
      .ok ⟨⟨0x60⟩, 7, 0x100, 16, Bitcode.magic, .pixel⟩ := rfl
  have accepted : Loader.undecoded wrappedBitcode "" =
      .ok { undecoded := some { length := 5, wrapped := true } } := rfl
  exact ⟨boxed Loader.measuring _ _ parsed (by decide), rfl,
    built .hull wrappedBitcode "" _ accepted (by decide)⟩

end ShaderReport
