/-
# Programs read back

A built program is six words, the bitcode, and zeros up to whole words.  What has to be shown
is where the six words stand, and that the declared size counts the filled bitcode
(`header_build`).  Then the program fits, also with other bytes behind it (`fits_build`), and
it is read back as it was given, without the zeros (`ofBytes_build`).

The version word is packed and taken apart again; this holds of every stage and every model
number, cut to four bits (`stage?_pack`, `major_pack`, `minor_pack`).
-/
import ShaderReport.Proofs.Program.Format

namespace ShaderReport.Program

/-! ## Packed words -/

namespace Version

variable (stage : Stage) (major minor : Nat)

theorem toNat_pack :
    (pack stage major minor).raw.toNat = stage.code * 65536 + major % 16 * 16 + minor % 16 := by
  have code : stage.code ≤ 6 := by cases stage <;> decide
  rw [pack, UInt32.toNat_ofNat', Nat.mod_eq_of_lt]
  omega

theorem stage?_pack : (pack stage major minor).stage? = some stage := by
  have code : (stage.code * 65536 + major % 16 * 16 + minor % 16) / 65536 = stage.code := by omega
  rw [stage?, stageCode, toNat_pack, code]
  exact Stage.ofCode?_code stage

theorem major_pack : (pack stage major minor).major = major % 16 := by
  rw [Version.major, toNat_pack]
  omega

theorem minor_pack : (pack stage major minor).minor = minor % 16 := by
  rw [Version.minor, toNat_pack]
  omega

end Version

/-! ## Built programs -/

section Build

variable (stage : Stage) (bitcode rest : Bytes)

/-- The length of a built program: the header, and the bitcode in whole words. -/
def builtLength : Nat := 24 + (bitcode.length + (wordPadding bitcode.length).length)

/-- The six words of a built header. -/
def headerWords : List Nat :=
  [(Version.pack stage 6 0).raw.toNat, builtLength bitcode / 4, magic.toNat, 0x100, 16,
   bitcode.length]

theorem build_eq : build stage bitcode =
    (headerWords stage bitcode).flatMap (Bytes.ofNatLE 4) ++
      (bitcode ++ wordPadding bitcode.length) := by
  simp [build, headerWords, builtLength, Bytes.ofUInt32, headerLength, bitcodeBase, Nat.add_assoc]

theorem length_wordPadding (n : Nat) : (wordPadding n).length = (4 - n % 4) % 4 := by
  rw [wordPadding, List.length_replicate]

theorem length_build : (build stage bitcode).length = builtLength bitcode := by
  rw [build_eq, List.length_append, Bytes.length_flatMap_ofNatLE, List.length_append]
  rfl

theorem builtLength_eq : builtLength bitcode = 24 + (bitcode.length + 3) / 4 * 4 := by
  rw [builtLength, length_wordPadding]
  omega

theorem four_mul_builtLength : 4 * (builtLength bitcode / 4) = builtLength bitcode := by
  rw [builtLength_eq]
  omega

variable {bitcode} (small : builtLength bitcode < 4294967296)
include small

/-- The words of the header, whatever stands behind the program. -/
theorem header_build :
    (Bytes.u32At (build stage bitcode ++ rest) 0).toNat = (Version.pack stage 6 0).raw.toNat ∧
    (Bytes.u32At (build stage bitcode ++ rest) 4).toNat = builtLength bitcode / 4 ∧
    (Bytes.u32At (build stage bitcode ++ rest) 8).toNat = magic.toNat ∧
    (Bytes.u32At (build stage bitcode ++ rest) 12).toNat = 0x100 ∧
    (Bytes.u32At (build stage bitcode ++ rest) 16).toNat = 16 ∧
    (Bytes.u32At (build stage bitcode ++ rest) 20).toNat = bitcode.length := by
  -- each is written in four bytes, and none is too large for them
  have words : ∀ n ∈ headerWords stage bitcode, n < 4294967296 := by
    intro n hn
    simp only [headerWords, List.mem_cons, List.not_mem_nil, or_false] at hn
    rcases hn with rfl | rfl | rfl | rfl | rfl | rfl
    · exact UInt32.toNat_lt _
    · omega
    · exact UInt32.toNat_lt _
    · omega
    · omega
    · unfold builtLength at small
      omega
  have table := Bytes.u32At_table [] (bitcode ++ wordPadding bitcode.length ++ rest) _ words
  rw [List.nil_append, ← List.append_assoc, ← build_eq] at table
  simpa [headerWords, List.range_succ_eq_map] using table

theorem versionAt_build : versionAt (build stage bitcode ++ rest) = .pack stage 6 0 := by
  obtain ⟨version, -⟩ := header_build stage rest small
  rw [versionAt, UInt32.toNat_inj.mp version]

theorem headerFits_build : HeaderFits (build stage bitcode ++ rest) stage := by
  obtain ⟨-, words, magic, format, -, -⟩ := header_build stage rest small
  have version := versionAt_build stage rest small
  have length : (build stage bitcode ++ rest).length = builtLength bitcode + rest.length := by
    rw [List.length_append, length_build]
  constructor
  case length =>
      rw [length]
      unfold builtLength
      omega
  case words =>
      rw [words, four_mul_builtLength, length]
      omega
  case magic => exact UInt32.toNat_inj.mp magic
  case stage => rw [version, Version.stage?_pack]
  case model => rw [version, Version.major_pack]
  case format => rw [format]

theorem fits_build (nonempty : 0 < bitcode.length) : Fits (build stage bitcode ++ rest) stage := by
  obtain ⟨-, -, -, -, offset, size⟩ := header_build stage rest small
  obtain ⟨length, words, magic, version, model, format⟩ := headerFits_build stage rest small
  refine ⟨length, words, magic, version, model, format, ?_, ?_⟩
  · intro none
    rw [none] at size
    exact absurd size (Nat.ne_of_lt nonempty)
  · rw [offset, size, List.length_append, length_build]
    unfold builtLength
    omega

omit small in
/-- The bitcode of a built program stands behind the header, in front of what fills it up. -/
theorem window_build :
    Bytes.window (build stage bitcode ++ rest) (8 + 16) bitcode.length = bitcode := by
  have header : ((headerWords stage bitcode).flatMap (Bytes.ofNatLE 4)).length = 8 + 16 :=
    Bytes.length_flatMap_ofNatLE _
  have middle := Bytes.window_middle ((headerWords stage bitcode).flatMap (Bytes.ofNatLE 4)) bitcode
    (wordPadding bitcode.length ++ rest)
  rwa [header, ← List.append_assoc bitcode, ← List.append_assoc, ← build_eq] at middle

/-- The program that a built one is read back as. -/
def built (stage : Stage) (bitcode : Bytes) : Program where
  version := .pack stage 6 0
  sizeInWords := .ofNat (builtLength bitcode / 4)
  formatVersion := 0x100
  bitcodeOffset := 16
  bitcode := bitcode
  stage := stage

theorem ofBytes_build : ofBytes (build stage bitcode ++ rest) stage = built stage bitcode := by
  obtain ⟨-, words, -, format, offset, size⟩ := header_build stage rest small
  have words' : Bytes.u32At (build stage bitcode ++ rest) 4 = .ofNat (builtLength bitcode / 4) := by
    apply UInt32.toNat_inj.mp
    rw [words, UInt32.toNat_ofNat_of_lt' (show builtLength bitcode / 4 < 2 ^ 32 by omega)]
  have format' : Bytes.u32At (build stage bitcode ++ rest) 12 = 0x100 := UInt32.toNat_inj.mp format
  have offset' : Bytes.u32At (build stage bitcode ++ rest) 16 = 16 := UInt32.toNat_inj.mp offset
  rw [ofBytes, offset, size, window_build, versionAt_build stage rest small, words', format',
    offset']
  rfl

theorem parse_build_append (nonempty : 0 < bitcode.length) :
    parse (build stage bitcode ++ rest) = .ok (built stage bitcode) := by
  rw [parse_of_fits (fits_build stage rest small nonempty), ofBytes_build stage rest small]

theorem exists_parse_build (nonempty : 0 < bitcode.length) :
    ∃ program, parse (build stage bitcode ++ rest) = .ok program ∧ program.stage = stage ∧
      program.bitcode = bitcode :=
  ⟨_, parse_build_append stage rest small nonempty, rfl, rfl⟩

end Build

/-! ## The round trip -/

/-- A built program is read back whatever stands behind it: its stage, shader model 6.0, its
size in words, and the bitcode without what fills it up.  Without any bitcode there is no
program to read back. -/
theorem program_round_trip (stage : Stage) (bitcode : Bytes)
    (small : 24 + (bitcode.length + 3) / 4 * 4 < 2 ^ 32) :
    (build stage bitcode).length = 24 + (bitcode.length + 3) / 4 * 4 ∧
    (1 ≤ bitcode.length → ∃ p, parse (build stage bitcode) = .ok p ∧
      (∀ rest, parse (build stage bitcode ++ rest) = .ok p) ∧
      p.stage = stage ∧ p.version.stage? = some stage ∧
      p.version.major = 6 ∧ p.version.minor = 0 ∧
      p.sizeInWords.toNat = (build stage bitcode).length / 4 ∧
      p.bitcodeOffset = 16 ∧ p.bitcode = bitcode) ∧
    (bitcode.length = 0 → ∀ rest, parse (build stage bitcode ++ rest) = .error .emptyBitcode) := by
  rw [← builtLength_eq] at small
  have length := length_build stage bitcode
  refine ⟨length.trans (builtLength_eq bitcode), ?_, ?_⟩
  · intro nonempty
    have read : ∀ rest, parse (build stage bitcode ++ rest) = .ok (built stage bitcode) :=
      fun rest => parse_build_append stage rest small nonempty
    have alone := read []
    rw [List.append_nil] at alone
    have words : (built stage bitcode).sizeInWords.toNat = (build stage bitcode).length / 4 := by
      rw [length]
      exact UInt32.toNat_ofNat_of_lt' (show builtLength bitcode / 4 < 2 ^ 32 by omega)
    exact ⟨built stage bitcode, alone, read, rfl, Version.stage?_pack stage 6 0,
      Version.major_pack stage 6 0, Version.minor_pack stage 6 0, words, rfl, rfl⟩
  · intro empty rest
    obtain ⟨-, -, -, -, -, size⟩ := header_build stage rest small
    have none : Bytes.u32At (build stage bitcode ++ rest) 20 = 0 :=
      UInt32.toNat_inj.mp (size.trans empty)
    rw [parse_of_headerFits (headerFits_build stage rest small), if_pos none]

/-- Bitcode of five bytes, which is filled up to eight, with more bytes behind the program. -/
theorem program_round_trip_filled :
    ∃ p, parse (build .hull [0x42, 0x43, 0xC0, 0xDE, 0]) = .ok p ∧
      parse (build .hull [0x42, 0x43, 0xC0, 0xDE, 0] ++ [1, 2, 3]) = .ok p ∧
      p.stage = .hull ∧ p.sizeInWords.toNat = 8 ∧ p.bitcode = [0x42, 0x43, 0xC0, 0xDE, 0] ∧
      parse (build .hull []) = .error .emptyBitcode := by
  obtain ⟨length, found, -⟩ :=
    program_round_trip .hull [0x42, 0x43, 0xC0, 0xDE, 0] (by decide)
  obtain ⟨p, alone, followed, stage, -, -, -, words, -, bitcode⟩ := found (by decide)
  obtain ⟨-, -, empty⟩ := program_round_trip .hull [] (by decide)
  rw [length] at words
  exact ⟨p, alone, followed [1, 2, 3], stage, words, bitcode, empty rfl []⟩

end ShaderReport.Program
