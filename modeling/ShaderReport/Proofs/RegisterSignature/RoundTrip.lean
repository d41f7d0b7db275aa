/-
# Signatures read back

A built signature is a header of two words, the records, the names the records point at,
and zeros up to whole words.  Reading it follows the records, and for each of them jumps to
its name.

A record is read back field by field whatever stands behind it (`readElement_recordBytes`),
as long as its name is found at the offset it states.  The names are found by an induction
over the elements in which the part of the payload in front of the names grows: after
each element its name joins that front (`readElements_tableBytes`).  What stands behind
the names, the filling zeros among it, is never looked at.

A name that holds a NUL ends there for every reader, so it comes back cut (`parse_build`);
all other names come back whole.
-/
import ShaderReport.Proofs.Bytes.Names
import ShaderReport.Proofs.Bytes.Windows
import ShaderReport.RegisterSignature.Basic

namespace ShaderReport.RegisterSignature

/-! ## One record -/

/-- The words in front of a record's masks. -/
def recordWords (e : RegisterElement) (nameOffset : Nat) : List Nat :=
  [e.stream.toNat, nameOffset, e.index.toNat, e.systemValueCode.toNat, e.formatCode.toNat,
   e.register.toNat]

theorem recordBytes_append (e : RegisterElement) (nameOffset : Nat) (rest : Bytes) :
    recordBytes e nameOffset ++ rest =
      (recordWords e nameOffset).flatMap (Bytes.ofNatLE 4) ++
        (e.mask :: e.usage :: 0 :: 0 :: (Bytes.ofNatLE 4 e.minPrecision.toNat ++ rest)) := by
  simp [recordBytes, recordWords, Bytes.ofUInt32, Bytes.ofUInt16, Bytes.ofNatLE]

theorem length_recordBytes (e : RegisterElement) (nameOffset : Nat) :
    (recordBytes e nameOffset).length = recordLength := by
  simp [recordBytes, recordLength]

theorem u8At_middle (front : Bytes) (x : UInt8) (rest : Bytes) :
    Bytes.u8At (front ++ x :: rest) front.length = x := by
  rw [Bytes.u8At, List.getD_eq_getElem?_getD, List.getElem?_append_right (Nat.le_refl _),
    Nat.sub_self]
  rfl

section Record

variable (e : RegisterElement) {nameOffset : Nat} (small : nameOffset < 4294967296) (rest : Bytes)
include small

theorem words_recordBytes :
    Bytes.u32At (recordBytes e nameOffset ++ rest) 0 = e.stream ∧
    (Bytes.u32At (recordBytes e nameOffset ++ rest) 4).toNat = nameOffset ∧
    Bytes.u32At (recordBytes e nameOffset ++ rest) 8 = e.index ∧
    Bytes.u32At (recordBytes e nameOffset ++ rest) 12 = e.systemValueCode ∧
    Bytes.u32At (recordBytes e nameOffset ++ rest) 16 = e.formatCode ∧
    Bytes.u32At (recordBytes e nameOffset ++ rest) 20 = e.register := by
  have words : ∀ n ∈ recordWords e nameOffset, n < 4294967296 := by
    intro n hn
    simp only [recordWords, List.mem_cons, List.not_mem_nil, or_false] at hn
    rcases hn with rfl | rfl | rfl | rfl | rfl | rfl
    case inr.inl => exact small
    all_goals exact UInt32.toNat_lt _
  have table := Bytes.u32At_table []
    (e.mask :: e.usage :: 0 :: 0 :: (Bytes.ofNatLE 4 e.minPrecision.toNat ++ rest)) _ words
  rw [List.nil_append, ← recordBytes_append] at table
  simpa [recordWords, List.range_succ_eq_map, UInt32.toNat_inj] using table

omit small in
theorem masks_recordBytes (nameOffset : Nat) :
    Bytes.u8At (recordBytes e nameOffset ++ rest) 24 = e.mask ∧
    Bytes.u8At (recordBytes e nameOffset ++ rest) 25 = e.usage ∧
    Bytes.u32At (recordBytes e nameOffset ++ rest) 28 = e.minPrecision := by
  let words := (recordWords e nameOffset).flatMap (Bytes.ofNatLE 4)
  have length : words.length = 24 := Bytes.length_flatMap_ofNatLE _
  have mask := u8At_middle words e.mask
    (e.usage :: 0 :: 0 :: (Bytes.ofNatLE 4 e.minPrecision.toNat ++ rest))
  have usage := u8At_middle (words ++ [e.mask]) e.usage
    (0 :: 0 :: (Bytes.ofNatLE 4 e.minPrecision.toNat ++ rest))
  have precision := Bytes.u32At_middle (words ++ [e.mask, e.usage, 0, 0]) rest
    e.minPrecision.toNat_lt
  rw [List.length_append, length, List.append_assoc] at usage precision
  rw [length] at mask
  rw [recordBytes_append]
  exact ⟨mask, usage, UInt32.toNat_inj.mp precision⟩

/-- A record is read back, with the name that is found at its offset. -/
theorem readElement_recordBytes {payload : Indexed} {name : String}
    (named : payload.readString nameOffset = .ok name) :
    readElement payload (recordBytes e nameOffset ++ rest) = .ok { e with name } := by
  obtain ⟨stream, offset, index, systemValue, format, register⟩ := words_recordBytes e small rest
  obtain ⟨mask, usage, precision⟩ := masks_recordBytes e rest nameOffset
  rw [readElement, offset, named]
  simp only [Except.map, stream, index, systemValue, format, register, mask, usage, precision]

end Record

/-! ## The table and the names -/

/-- All names, one behind the other. -/
def nameBytes (elements : List RegisterElement) : Bytes :=
  elements.flatMap fun e => Bytes.ofString e.name

/-- An element as it is read back. -/
def cut (e : RegisterElement) : RegisterElement := { e with name := Bytes.upToNul e.name }

theorem length_tableBytes (names : Nat) (elements : List RegisterElement) :
    (tableBytes names elements).length = recordLength * elements.length := by
  induction elements generalizing names with
  | nil => rfl
  | cons e rest ih =>
      rw [tableBytes, List.length_append, length_recordBytes, ih, List.length_cons,
        Nat.mul_succ, Nat.add_comm]

/-- The table is read back if the names it points at stand behind `front`. -/
theorem readElements_tableBytes (front : Bytes) (elements : List RegisterElement)
    (behind more : Bytes) (index : Nat)
    (small : (front ++ (nameBytes elements ++ behind)).length < 4294967296) :
    readElements (Bytes.index (front ++ (nameBytes elements ++ behind))) elements.length index
      (tableBytes front.length elements ++ more) = .ok (elements.map cut) := by
  induction elements generalizing front index with
  | nil => rfl
  | cons e rest ih =>
      -- the first name joins the front
      have split : front ++ (nameBytes (e :: rest) ++ behind) =
          front ++ (Bytes.ofString e.name ++ (nameBytes rest ++ behind)) := by
        rw [nameBytes, List.flatMap_cons, List.append_assoc, nameBytes]
      have shift : front ++ (Bytes.ofString e.name ++ (nameBytes rest ++ behind)) =
          (front ++ Bytes.ofString e.name) ++ (nameBytes rest ++ behind) :=
        (List.append_assoc _ _ _).symm
      rw [split] at small ⊢
      have named : (Bytes.index (front ++ (Bytes.ofString e.name ++
          (nameBytes rest ++ behind)))).readString front.length = .ok (Bytes.upToNul e.name) := by
        rw [Indexed.readString_index]
        exact Bytes.readString_ofString _ _ _
      have offset : front.length < 4294967296 := by
        rw [List.length_append] at small
        omega
      have first := readElement_recordBytes e offset
        (tableBytes (front.length + (Bytes.ofString e.name).length) rest ++ more) named
      have others := ih (front ++ Bytes.ofString e.name) (index + 1) (shift ▸ small)
      rw [← shift, List.length_append] at others
      have next : (recordBytes e front.length ++
          (tableBytes (front.length + (Bytes.ofString e.name).length) rest ++ more)).drop
            recordLength =
          tableBytes (front.length + (Bytes.ofString e.name).length) rest ++ more :=
        List.drop_left' (length_recordBytes e _)
      rw [List.length_cons, readElements, tableBytes, List.append_assoc, first, next]
      simp only [others]
      rfl

/-! ## The whole payload -/

section Build

variable (elements : List RegisterElement)

/-- The number of elements, and where their table begins. -/
def headerBytes : Bytes := Bytes.ofNatLE 4 elements.length ++ Bytes.ofNatLE 4 headerLength

theorem length_headerBytes : (headerBytes elements).length = headerLength := by
  rw [headerBytes, List.length_append, Bytes.length_ofNatLE, Bytes.length_ofNatLE]
  rfl

/-- Everything in front of the names. -/
def frontBytes : Bytes :=
  headerBytes elements ++ tableBytes (headerLength + recordLength * elements.length) elements

theorem length_frontBytes :
    (frontBytes elements).length = headerLength + recordLength * elements.length := by
  rw [frontBytes, List.length_append, length_headerBytes, length_tableBytes]

/-- The zeros up to whole words. -/
def fillBytes : Bytes :=
  List.replicate ((4 - (frontBytes elements ++ nameBytes elements).length % 4) % 4) 0

theorem build_eq : build elements =
    frontBytes elements ++ (nameBytes elements ++ fillBytes elements) := by
  rw [← List.append_assoc]
  rfl

theorem drop_build : (build elements).drop headerLength =
    tableBytes (frontBytes elements).length elements ++
      (nameBytes elements ++ fillBytes elements) := by
  rw [build_eq, length_frontBytes, frontBytes, List.append_assoc]
  exact List.drop_left' (length_headerBytes elements)

theorem length_le_build :
    headerLength + recordLength * elements.length ≤ (build elements).length := by
  rw [build_eq, List.length_append, length_frontBytes]
  exact Nat.le_add_right _ _

variable {elements} (small : (build elements).length < 4294967296)
include small

/-- The two words of the header. -/
theorem header_build :
    ((build elements).u32At 0).toNat = elements.length ∧
      ((build elements).u32At 4).toNat = headerLength := by
  have fits := length_le_build elements
  simp only [headerLength, recordLength] at fits
  let rest := tableBytes (headerLength + recordLength * elements.length) elements ++
    (nameBytes elements ++ fillBytes elements)
  have whole : build elements =
      Bytes.ofNatLE 4 elements.length ++ (Bytes.ofNatLE 4 headerLength ++ rest) := by
    rw [build_eq, frontBytes, headerBytes]
    simp only [List.append_assoc, rest]
  have count := Bytes.u32At_middle [] (Bytes.ofNatLE 4 headerLength ++ rest)
    (show elements.length < 4294967296 by omega)
  have start := Bytes.u32At_middle (Bytes.ofNatLE 4 elements.length) rest
    (show headerLength < 4294967296 by decide)
  rw [Bytes.length_ofNatLE, ← whole] at start
  rw [List.nil_append, ← whole] at count
  exact ⟨count, start⟩

theorem readElements_build :
    readElements (build elements).index elements.length 0 ((build elements).drop headerLength) =
      .ok (elements.map cut) := by
  rw [drop_build, build_eq]
  rw [build_eq] at small
  exact readElements_tableBytes _ _ _ _ _ small

theorem parse_build_eq : parse (build elements) = .ok ⟨elements.map cut⟩ := by
  obtain ⟨count, start⟩ := header_build small
  have fits := length_le_build elements
  have enough : 8 ≤ (build elements).length := Nat.le_trans (Nat.le_add_right _ _) fits
  have first : (build elements).readU32 0 = .ok ((build elements).u32At 0) :=
    Bytes.reads_u32.eq_ok (by omega) (by decide)
  have second : (build elements).readU32 4 = .ok ((build elements).u32At 4) :=
    Bytes.reads_u32.eq_ok (by omega) (by decide)
  rw [parse, first, second]
  dsimp only
  by_cases none : (build elements).u32At 0 = 0
  · -- a count of zero is an empty list of elements
    rw [none] at count
    obtain rfl : elements = [] := List.eq_nil_of_length_eq_zero count.symm
    rw [if_pos none]
    rfl
  · have inside : ¬ (headerLength < headerLength ∨
        (build elements).length < headerLength + elements.length * recordLength) := by
      rw [Nat.mul_comm elements.length]
      exact not_or.mpr ⟨Nat.lt_irrefl _, Nat.not_lt.mpr fits⟩
    rw [if_neg none, count, start, if_neg inside, readElements_build small]
    rfl

end Build

/-! ## The round trip -/

/-- A signature that was built is read back element by element, each name up to its first
NUL; without such characters the elements are the ones given. -/
theorem signature_round_trip (elements : List RegisterElement)
    (small : (build elements).length < 4294967296) :
    parse (build elements) =
      .ok ⟨elements.map fun e => { e with name := Bytes.upToNul e.name }⟩ ∧
    ((∀ e ∈ elements, '\x00' ∉ e.name.toList) → parse (build elements) = .ok ⟨elements⟩) := by
  have back := parse_build_eq small
  refine ⟨back, ?_⟩
  intro whole
  have same : elements.map cut = elements.map id := by
    refine List.map_congr_left ?_
    intro e he
    rw [cut, Bytes.upToNul_eq_self (whole e he)]
    rfl
  rw [back, same, List.map_id]

/-- A name with a NUL inside, an empty one, and one outside of ASCII. -/
def oddlyNamed : List RegisterElement :=
  [⟨0, "TEX\x00COORD", 1, 0, 3, 0, 15, 3, 0⟩, ⟨2, "", 0, 1, 3, 0xFFFFFFFF, 1, 0, 1⟩,
   ⟨0, "日本é", 7, 64, 1, 2, 255, 128, 4294967295⟩]

theorem signature_round_trip_oddlyNamed :
    parse (build oddlyNamed) =
      .ok ⟨[⟨0, "TEX", 1, 0, 3, 0, 15, 3, 0⟩, ⟨2, "", 0, 1, 3, 0xFFFFFFFF, 1, 0, 1⟩,
        ⟨0, "日本é", 7, 64, 1, 2, 255, 128, 4294967295⟩]⟩ := by
  have small : (build oddlyNamed).length < 4294967296 := by decide +kernel
  exact (signature_round_trip oddlyNamed small).1

end ShaderReport.RegisterSignature
