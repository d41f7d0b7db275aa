/-
# The program format

`Fits b stage` is the format of a program, check by check, over the six words of its
header.  Reading answers with a program exactly if its checks hold, and then with the
one that stands there (`parse_eq_ok_iff`).

`WellFormed b` says the same without the code of a stage and without the arithmetic that
takes the packed words apart: which bits have to hold which number.

## No read leaves its bytes

`parse` uses the total readers.  `parseStrictly` reads the six words with a cursor, multiplies
the declared size as a 64-bit word and goes to the bitcode's base only if there is such
a place; a failure of one of these is an error on the left, every fault of a program one on
the right, among the faults of all payloads.  By `parseStrictly_eq` there are only the
latter.
-/
import Mathlib.Algebra.GroupWithZero.Nat
import Mathlib.Data.List.Basic
import ShaderReport.Malformed
import ShaderReport.Program.Basic
import ShaderReport.Proofs.Bytes.Cursors
import ShaderReport.Proofs.Bytes.Windows

namespace ShaderReport.Program

/-- The version word in front of a program. -/
def versionAt (b : Bytes) : Version := ⟨b.u32At 0⟩

/-- The format of a program for a given stage. -/
structure Fits (b : Bytes) (stage : Stage) : Prop where
  length : 24 ≤ b.length
  words : 4 * (b.u32At 4).toNat ≤ b.length
  magic : b.u32At 8 = magic
  stage : (versionAt b).stage? = some stage
  model : (versionAt b).major = 6
  format : (b.u32At 12).toNat / 256 % 256 = 1
  nonempty : b.u32At 20 ≠ 0
  /-- The bitcode offset counts from the magic, eight bytes in. -/
  range : 8 + (b.u32At 16).toNat + (b.u32At 20).toNat ≤ b.length

/-- The program that stands in a byte string. -/
def ofBytes (b : Bytes) (stage : Stage) : Program where
  version := versionAt b
  sizeInWords := b.u32At 4
  formatVersion := b.u32At 12
  bitcodeOffset := b.u32At 16
  bitcode := b.window (8 + (b.u32At 16).toNat) (b.u32At 20).toNat
  stage := stage

/-! ## Reading -/

theorem slice_bitcode {b : Bytes} {offset size : UInt32}
    (h : 8 + offset.toNat + size.toNat ≤ b.length) :
    Bytes.slice (b.drop bitcodeBase) offset.toNat size.toNat =
      .ok (b.window (8 + offset.toNat) size.toNat) := by
  have inside : offset.toNat + size.toNat ≤ (b.drop bitcodeBase).length := by
    rw [List.length_drop, bitcodeBase]
    omega
  have small : offset.toNat + size.toNat < addressLimit := by
    have := offset.toNat_lt
    have := size.toNat_lt
    simp only [addressLimit]
    omega
  rw [Bytes.slice_eq_ok inside small, Bytes.window_drop]
  rfl

theorem range_of_slice {b found : Bytes} {offset size : UInt32} (length : 24 ≤ b.length)
    (h : Bytes.slice (b.drop bitcodeBase) offset.toNat size.toNat = .ok found) :
    8 + offset.toNat + size.toNat ≤ b.length := by
  by_contra outside
  have short : (b.drop bitcodeBase).length < offset.toNat + size.toNat := by
    rw [List.length_drop, bitcodeBase]
    omega
  obtain ⟨cause, failed⟩ := Bytes.slice_eq_error short
  rw [failed] at h
  cases h

/-- The checks that come before those of the bitcode. -/
structure HeaderFits (b : Bytes) (stage : Stage) : Prop where
  length : 24 ≤ b.length
  words : 4 * (b.u32At 4).toNat ≤ b.length
  magic : b.u32At 8 = magic
  stage : (versionAt b).stage? = some stage
  model : (versionAt b).major = 6
  format : (b.u32At 12).toNat / 256 % 256 = 1

theorem Fits.header {b : Bytes} {stage : Stage} (h : Fits b stage) : HeaderFits b stage :=
  ⟨h.length, h.words, h.magic, h.stage, h.model, h.format⟩

/-- Behind a header that fits, the bitcode decides. -/
theorem parse_of_headerFits {b : Bytes} {stage : Stage} (h : HeaderFits b stage) :
    parse b =
      if b.u32At 20 = 0 then .error .emptyBitcode
      else
        match Bytes.slice (b.drop bitcodeBase) (b.u32At 16).toNat (b.u32At 20).toNat with
        | .error cause => .error (.bitcodeRange cause)
        | .ok bitcode =>
          .ok ⟨versionAt b, b.u32At 4, b.u32At 12, b.u32At 16, bitcode, stage⟩ := by
  have long : ¬ b.length < headerLength := Nat.not_lt.mpr h.length
  have model : ¬ (Version.mk (b.u32At 0)).major ≠ modelMajor := not_not_intro h.model
  have format : ¬ (b.u32At 12).toNat / 256 % 256 ≠ formatMajor := not_not_intro h.format
  have found : (Version.mk (b.u32At 0)).stage? = some stage := h.stage
  unfold parse
  rw [if_neg long]
  dsimp only
  rw [if_neg (Nat.not_lt.mpr h.words), if_neg (not_not_intro h.magic), found]
  dsimp only
  rw [if_neg model, if_neg format]
  rfl

theorem parse_of_fits {b : Bytes} {stage : Stage} (h : Fits b stage) :
    parse b = .ok (ofBytes b stage) := by
  rw [parse_of_headerFits h.header, if_neg h.nonempty, slice_bitcode h.range]
  rfl

theorem fits_of_parse {b : Bytes} {p : Program} (h : parse b = .ok p) :
    Fits b p.stage ∧ p = ofBytes b p.stage := by
  unfold parse at h
  split at h
  · cases h
  rename_i length
  dsimp only at h
  split at h
  · cases h
  rename_i words
  split at h
  · cases h
  rename_i magic
  split at h
  · cases h
  rename_i stage found
  split at h
  · cases h
  rename_i model
  split at h
  · cases h
  rename_i format
  split at h
  · cases h
  rename_i nonempty
  split at h
  · cases h
  rename_i bitcode sliced
  have long : 24 ≤ b.length := Nat.not_lt.mp length
  have range := range_of_slice long sliced
  rw [slice_bitcode range] at sliced
  cases sliced
  cases h
  exact ⟨⟨long, Nat.not_lt.mp words, not_not.mp magic, found, not_not.mp model,
    not_not.mp format, nonempty, range⟩, rfl⟩

theorem parse_eq_ok_iff {b : Bytes} {p : Program} :
    parse b = .ok p ↔ Fits b p.stage ∧ p = ofBytes b p.stage := by
  constructor
  · exact fits_of_parse
  · rintro ⟨fits, same⟩
    rw [parse_of_fits fits, ← same]

/-! ## The format in bits -/

/-- So many bits of a word from a given one on, as a number. -/
def bits (w : UInt32) (low count : Nat) : Nat := (w.toBitVec.extractLsb' low count).toNat

/-- The format of a program: the words of its header, with the packed ones bit by bit. -/
structure WellFormed (b : Bytes) : Prop where
  length : 24 ≤ b.length
  words : 4 * (b.u32At 4).toNat ≤ b.length
  magic : b.u32At 8 = magic
  stage : bits (b.u32At 0) 16 16 ≤ 6
  model : bits (b.u32At 0) 4 4 = 6
  format : bits (b.u32At 12) 8 8 = 1
  nonempty : 0 < (b.u32At 20).toNat
  range : (b.u32At 16).toNat + (b.u32At 20).toNat ≤ b.length - 8

/-- What a program says about the bytes it was read from. -/
structure Holds (b : Bytes) (p : Program) : Prop where
  version : p.version.raw = b.u32At 0
  sizeInWords : p.sizeInWords = b.u32At 4
  formatVersion : p.formatVersion = b.u32At 12
  bitcodeOffset : p.bitcodeOffset = b.u32At 16
  bitcode : p.bitcode = b.window (8 + (b.u32At 16).toNat) (b.u32At 20).toNat
  bitcodeSize : p.bitcode.length = (b.u32At 20).toNat
  stage : Stage.ofCode? (bits (b.u32At 0) 16 16) = some p.stage

theorem bits_eq (w : UInt32) (low count : Nat) :
    bits w low count = w.toNat / 2 ^ low % 2 ^ count := by
  rw [bits, BitVec.extractLsb'_toNat, Nat.shiftRight_eq_div_pow, UInt32.toNat_toBitVec]

theorem stageCode_eq (v : Version) : v.stageCode = bits v.raw 16 16 := by
  have := v.raw.toNat_lt
  rw [Version.stageCode, bits_eq]
  omega

theorem major_eq (v : Version) : v.major = bits v.raw 4 4 := (bits_eq v.raw 4 4).symm

theorem exists_ofCode?_iff {n : Nat} : (∃ stage, Stage.ofCode? n = some stage) ↔ n ≤ 6 := by
  rw [← Option.isSome_iff_exists, Stage.ofCode?, isSome_getElem?]
  exact Nat.lt_succ_iff

theorem exists_fits_iff {b : Bytes} : (∃ stage, Fits b stage) ↔ WellFormed b := by
  constructor
  · rintro ⟨stage, h⟩
    have found : Stage.ofCode? (bits (b.u32At 0) 16 16) = some stage :=
      stageCode_eq (versionAt b) ▸ h.stage
    have range := h.range
    exact
      { length := h.length
        words := h.words
        magic := h.magic
        stage := exists_ofCode?_iff.mp ⟨stage, found⟩
        model := (major_eq (versionAt b)).symm.trans h.model
        format := (bits_eq (b.u32At 12) 8 8).trans h.format
        nonempty := Nat.pos_of_ne_zero fun none => h.nonempty (UInt32.toNat_inj.mp none)
        range := by omega }
  · intro h
    obtain ⟨stage, found⟩ := exists_ofCode?_iff.mpr h.stage
    have long := h.length
    have range := h.range
    refine ⟨stage, ?_⟩
    exact
      { length := h.length
        words := h.words
        magic := h.magic
        stage := (congrArg Stage.ofCode? (stageCode_eq (versionAt b))).trans found
        model := (major_eq (versionAt b)).trans h.model
        format := (bits_eq (b.u32At 12) 8 8).symm.trans h.format
        nonempty := fun none => Nat.ne_of_gt h.nonempty (congrArg UInt32.toNat none)
        range := by omega }

theorem holds_of_fits {b : Bytes} {stage : Stage} (h : Fits b stage) :
    Holds b (ofBytes b stage) where
  version := rfl
  sizeInWords := rfl
  formatVersion := rfl
  bitcodeOffset := rfl
  bitcode := rfl
  bitcodeSize := Bytes.length_window h.range
  stage := stageCode_eq (versionAt b) ▸ h.stage

/-! ## The same with a cursor -/

/-- The six words in front of a program. -/
structure Words where
  version : UInt32
  sizeInWords : UInt32
  magic : UInt32
  formatVersion : UInt32
  bitcodeOffset : UInt32
  bitcodeSize : UInt32

/-- Six words one behind the other. -/
def readWords (c : Cursor) : Except ReadError Words := do
  let (version, c) ← c.u32
  let (sizeInWords, c) ← c.u32
  let (magic, c) ← c.u32
  let (formatVersion, c) ← c.u32
  let (bitcodeOffset, c) ← c.u32
  let (bitcodeSize, _) ← c.u32
  return ⟨version, sizeInWords, magic, formatVersion, bitcodeOffset, bitcodeSize⟩

/-- Reads a program. -/
def parseStrictly (b : Bytes) : Except (ReadError ⊕ Malformed) Program :=
  if b.length < headerLength then .error (.inr (.program (.tooShort b.length)))
  else
    match readWords (.start b) with
    | .error cause => .error (.inl cause)
    | .ok words =>
      let version : Version := ⟨words.version⟩
      let declared : UInt64 := words.sizeInWords.toUInt64 * 4
      if b.length < declared.toNat then
        .error (.inr (.program (.sizeBeyondInput declared.toNat b.length)))
      else if words.magic ≠ magic then .error (.inr (.program (.badMagic words.magic)))
      else
        match version.stage? with
        | none => .error (.inr (.program (.unknownStage version.stageCode)))
        | some stage =>
          if version.major ≠ modelMajor then
            .error (.inr (.program (.unsupportedModel version.major version.minor)))
          else if words.formatVersion.toNat / 256 % 256 ≠ formatMajor then
            .error (.inr (.program (.unsupportedFormat words.formatVersion)))
          else if words.bitcodeSize = 0 then .error (.inr (.program .emptyBitcode))
          else
            match b.dropExactly? bitcodeBase with
            | none => .error (.inl (.outOfBounds bitcodeBase 0 b.length))
            | some area =>
              match area.slice words.bitcodeOffset.toNat words.bitcodeSize.toNat with
              | .error cause => .error (.inr (.program (.bitcodeRange cause)))
              | .ok bitcode => .ok ⟨version, words.sizeInWords, words.formatVersion,
                  words.bitcodeOffset, bitcode, stage⟩

theorem readWords_inside {b : Bytes} (h : 24 ≤ b.length) :
    readWords (.start b) =
      .ok ⟨b.u32At 0, b.u32At 4, b.u32At 8, b.u32At 12, b.u32At 16, b.u32At 20⟩ := by
  have word : ∀ n, n + 4 ≤ 24 → Cursor.u32 ⟨b, n⟩ = .ok (b.u32At n, ⟨b, n + 4⟩) := by
    intro n hn
    refine Cursor.word_inside Bytes.reads_u32 (by omega) ?_
    simp only [addressLimit]
    omega
  simp only [readWords, Cursor.start, word 0 (by decide), word 4 (by decide), word 8 (by decide),
    word 12 (by decide), word 16 (by decide), word 20 (by decide), bind, Except.bind]
  rfl

theorem toNat_declared (words : UInt32) : (words.toUInt64 * 4).toNat = 4 * words.toNat := by
  have := words.toNat_lt
  rw [UInt64.toNat_mul, UInt32.toNat_toUInt64]
  show words.toNat * 4 % 18446744073709551616 = 4 * words.toNat
  omega

theorem parseStrictly_eq (b : Bytes) :
    parseStrictly b = (parse b).mapError fun fault => .inr (.program fault) := by
  rw [parseStrictly, parse]
  by_cases short : b.length < headerLength
  · rw [if_pos short, if_pos short]
    rfl
  have area : b.dropExactly? bitcodeBase = some (b.drop bitcodeBase) := by
    rw [Bytes.dropExactly?_eq, if_pos]
    exact Nat.le_trans (by decide) (Nat.not_lt.mp short)
  rw [if_neg short, if_neg short, readWords_inside (Nat.not_lt.mp short)]
  dsimp only
  rw [toNat_declared, area]
  by_cases words : b.length < 4 * (b.u32At 4).toNat
  · rw [if_pos words, if_pos words]
    rfl
  rw [if_neg words, if_neg words]
  by_cases found : b.u32At 8 ≠ magic
  · rw [if_pos found, if_pos found]
    rfl
  rw [if_neg found, if_neg found]
  cases Version.stage? ⟨b.u32At 0⟩ with
  | none => rfl
  | some stage =>
      dsimp only
      by_cases model : Version.major ⟨b.u32At 0⟩ ≠ modelMajor
      · rw [if_pos model, if_pos model]
        rfl
      rw [if_neg model, if_neg model]
      by_cases format : (b.u32At 12).toNat / 256 % 256 ≠ formatMajor
      · rw [if_pos format, if_pos format]
        rfl
      rw [if_neg format, if_neg format]
      by_cases empty : b.u32At 20 = 0
      · rw [if_pos empty, if_pos empty]
        rfl
      rw [if_neg empty, if_neg empty]
      cases Bytes.slice (b.drop bitcodeBase) (b.u32At 16).toNat (b.u32At 20).toNat with
      | error cause => rfl
      | ok bitcode => rfl

/-- Reading accepts exactly the format.  It answers with the words of the header, the stage
that the version word names, and as much bitcode as is declared, counted from the magic.  All
other byte strings end in a fault of a program. -/
theorem parse_accepts_programs (b : Bytes) :
    ((∃ p, parse b = .ok p) ↔ WellFormed b) ∧ (∀ p, parse b = .ok p → Holds b p) ∧
    parseStrictly b = (parse b).mapError fun fault => .inr (.program fault) := by
  refine ⟨?_, ?_, parseStrictly_eq b⟩
  · rw [← exists_fits_iff]
    constructor
    · rintro ⟨p, h⟩
      exact ⟨p.stage, (parse_eq_ok_iff.mp h).1⟩
    · rintro ⟨stage, fits⟩
      exact ⟨_, parse_of_fits fits⟩
  · intro p h
    obtain ⟨fits, same⟩ := parse_eq_ok_iff.mp h
    rw [same]
    exact holds_of_fits fits

/-- A program of nothing but its header, the last four words of which are its bitcode. -/
def selfContained : Bytes := [0x60062, 6, magic.toNat, 0x1FF, 0, 16].flatMap (Bytes.ofNatLE 4)

theorem parse_accepts_programs_selfContained :
    WellFormed selfContained ∧ ∃ p, parse selfContained = .ok p ∧ Holds selfContained p ∧
      p.stage = .library ∧ p.bitcode = selfContained.drop 8 := by
  have wellFormed : WellFormed selfContained := by
    constructor <;> decide +kernel
  obtain ⟨accepted, held, -⟩ := parse_accepts_programs selfContained
  obtain ⟨p, read⟩ := accepted.mpr wellFormed
  have library : Stage.ofCode? (bits (selfContained.u32At 0) 16 16) = some .library := by
    decide +kernel
  have whole : selfContained.window (8 + (selfContained.u32At 16).toNat)
      (selfContained.u32At 20).toNat = selfContained.drop 8 := by decide +kernel
  have holds := held p read
  exact ⟨wellFormed, p, read, holds, Option.some.inj (holds.stage.symm.trans library),
    holds.bitcode.trans whole⟩

end ShaderReport.Program
