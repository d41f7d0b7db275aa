/-
# The format of pipeline facts

The payload is a size and a record, and the same record means something else for every stage.
`recordLength` says how many of its bytes a stage needs, `factsAt` what they mean.
`WellFormed b stage` is the format: the size word is there, the record is as long as the stage
needs, both by what is declared of it and by what is there, and the fields that are places in
a table of names lie inside their tables.

Reading accepts exactly this (`parse_accepts_records`).  Two steps carry it.  A record that is
long enough is read as the facts that stand in it, a shorter one is refused at its last
field (`readRecord_of_le`, `readRecord_of_short`); and the facts pass the check of their
tables exactly if the bytes do (`rangeFault?_factsAt`).  Facts read from a record are
those of the bytes it was cut from (`factsAt_window`), so bytes past those a stage needs do
not matter.

Names are shown with a fallback for places past a table.  The tables hold the word of the
fallback themselves, so a line does not tell where its name comes from.  `factLinesOr` is
what would be shown with another fallback: for facts that were read, the same lines.
-/
import ShaderReport.Malformed
import ShaderReport.Proofs.Bytes.Cursors
import ShaderReport.Report.RuntimeInfo

namespace ShaderReport.RuntimeInfo

/-- How many bytes of a record a stage needs. -/
def recordLength : Stage → Nat
  | .vertex => 1
  | .pixel => 2
  | .geometry => 13
  | .hull => 16
  | .domain => 5
  | .compute => 0
  | .library => 0

/-- The facts of a stage in the record at a place. -/
def factsAt (b : Bytes) (place : Nat) : Stage → RuntimeInfo
  | .vertex => .vertex (b.u8At place ≠ 0)
  | .pixel => .pixel (b.u8At place ≠ 0) (b.u8At (place + 1) ≠ 0)
  | .geometry => .geometry (b.u32At place) (b.u32At (place + 4)) (b.u32At (place + 8))
      (b.u8At (place + 12) ≠ 0)
  | .hull => .hull (b.u32At place) (b.u32At (place + 4)) (b.u32At (place + 8))
      (b.u32At (place + 12))
  | .domain => .domain (b.u32At place) (b.u8At (place + 4) ≠ 0)
  | .compute => .other .compute
  | .library => .other .library

/-- Whether the fields that are places in tables lie inside them. -/
def InTables (b : Bytes) (place : Nat) : Stage → Prop
  | .geometry => (b.u32At place).toNat < 40 ∧ (b.u32At (place + 4)).toNat < 6
  | .hull => (b.u32At (place + 8)).toNat < 4 ∧ (b.u32At (place + 12)).toNat < 5
  | _ => True

/-- A payload with as much of a record as a stage needs. -/
structure HasRecord (b : Bytes) (stage : Stage) : Prop where
  length : 4 ≤ b.length
  record : recordLength stage ≤ min (b.u32At 0).toNat (b.length - 4)

/-- The format of a payload for a stage. -/
structure WellFormed (b : Bytes) (stage : Stage) : Prop extends HasRecord b stage where
  tables : InTables b 4 stage

/-! ## The record -/

/-- The facts of a record cut from a payload are those of the payload. -/
theorem factsAt_window (b : Bytes) (place : Nat) {stage : Stage} {width : Nat}
    (h : recordLength stage ≤ width) :
    factsAt (b.window place width) 0 stage = factsAt b place stage := by
  have word : ∀ o, o + 4 ≤ recordLength stage →
      Bytes.u32At (b.window place width) o = b.u32At (place + o) :=
    fun o ho => Bytes.reads_u32.inWindow b place (Nat.le_trans ho h)
  have byte : ∀ o, o + 1 ≤ recordLength stage →
      Bytes.u8At (b.window place width) o = b.u8At (place + o) :=
    fun o ho => Bytes.reads_u8.inWindow b place (Nat.le_trans ho h)
  cases stage with
  | vertex => simp only [factsAt, byte 0 (by decide), Nat.add_zero]
  | pixel => simp only [factsAt, byte 0 (by decide), byte (0 + 1) (by decide), Nat.add_zero,
      Nat.zero_add]
  | geometry => simp only [factsAt, word 0 (by decide), word (0 + 4) (by decide),
      word (0 + 8) (by decide), byte (0 + 12) (by decide), Nat.add_zero, Nat.zero_add]
  | hull => simp only [factsAt, word 0 (by decide), word (0 + 4) (by decide),
      word (0 + 8) (by decide), word (0 + 12) (by decide), Nat.add_zero, Nat.zero_add]
  | domain => simp only [factsAt, word 0 (by decide), byte (0 + 4) (by decide), Nat.add_zero,
      Nat.zero_add]
  | compute => rfl
  | library => rfl

/-- Two places held against their tables one after the other. -/
theorem both_inside_iff {place limit place' limit' : Nat} {fault fault' : RuntimeInfoFault} :
    (if limit ≤ place then some fault else if limit' ≤ place' then some fault' else none) = none ↔
      place < limit ∧ place' < limit' := by
  by_cases first : limit ≤ place
  · rw [if_pos first]
    exact iff_of_false (Option.some_ne_none _) fun h => absurd first (Nat.not_le.mpr h.1)
  by_cases second : limit' ≤ place'
  · rw [if_neg first, if_pos second]
    exact iff_of_false (Option.some_ne_none _) fun h => absurd second (Nat.not_le.mpr h.2)
  rw [if_neg first, if_neg second]
  exact iff_of_true rfl ⟨Nat.not_le.mp first, Nat.not_le.mp second⟩

theorem rangeFault?_factsAt (b : Bytes) (place : Nat) (stage : Stage) :
    (factsAt b place stage).rangeFault? = none ↔ InTables b place stage := by
  cases stage with
  | geometry => exact both_inside_iff
  | hull => exact both_inside_iff
  | _ => exact iff_of_true rfl trivial

theorem recordLength_le (stage : Stage) : recordLength stage ≤ 16 := by
  cases stage <;> decide

theorem readFlag_eq_ok {record : Bytes} {offset : Nat} (h : offset + 1 ≤ record.length)
    (small : offset + 1 < addressLimit) :
    readFlag record offset = .ok (decide (record.u8At offset ≠ 0)) := by
  rw [readFlag, Bytes.reads_u8.eq_ok h small]
  rfl

theorem readRecord_of_le {record : Bytes} {stage : Stage}
    (h : recordLength stage ≤ record.length) :
    readRecord record stage = .ok (factsAt record 0 stage) := by
  have small : ∀ stop, stop ≤ recordLength stage → stop < addressLimit := by
    intro stop hs
    have := recordLength_le stage
    simp only [addressLimit]
    omega
  have word : ∀ o, o + 4 ≤ recordLength stage → record.readU32 o = .ok (record.u32At o) :=
    fun o ho => Bytes.reads_u32.eq_ok (Nat.le_trans ho h) (small _ ho)
  have flag : ∀ o, o + 1 ≤ recordLength stage →
      readFlag record o = .ok (decide (record.u8At o ≠ 0)) :=
    fun o ho => readFlag_eq_ok (Nat.le_trans ho h) (small _ ho)
  cases stage with
  | vertex =>
      rw [readRecord, flag 0 (by decide)]
      rfl
  | pixel =>
      rw [readRecord, flag 0 (by decide), flag 1 (by decide)]
      rfl
  | geometry =>
      rw [readRecord, word 0 (by decide), word 4 (by decide), word 8 (by decide),
        flag 12 (by decide)]
      rfl
  | hull =>
      rw [readRecord, word 0 (by decide), word 4 (by decide), word 8 (by decide),
        word 12 (by decide)]
      rfl
  | domain =>
      rw [readRecord, word 0 (by decide), flag 4 (by decide)]
      rfl
  | compute => rfl
  | library => rfl

theorem bind_fails {ε α β : Type} (x : Except ε α) {f : α → Except ε β}
    (h : ∀ a, ∃ cause, f a = .error cause) : ∃ cause, (x >>= f) = .error cause := by
  cases x with
  | error cause => exact ⟨cause, rfl⟩
  | ok a => exact h a

theorem readFlag_fails {record : Bytes} {offset : Nat} (h : record.length < offset + 1) :
    ∃ cause, readFlag record offset = .error cause := by
  obtain ⟨cause, failed⟩ := Bytes.reads_u8.eq_error h
  rw [readFlag, failed]
  exact ⟨cause, rfl⟩

theorem readRecord_of_short {record : Bytes} {stage : Stage}
    (h : record.length < recordLength stage) : ∃ cause, readRecord record stage = .error cause := by
  -- the fields in front may be there or not: the last one is not
  cases stage with
  | vertex =>
      obtain ⟨cause, failed⟩ := readFlag_fails h
      rw [readRecord, failed]
      exact ⟨cause, rfl⟩
  | pixel =>
      obtain ⟨cause, failed⟩ := readFlag_fails h
      rw [readRecord, failed]
      exact bind_fails _ fun _ => ⟨cause, rfl⟩
  | geometry =>
      obtain ⟨cause, failed⟩ := readFlag_fails h
      rw [readRecord, failed]
      exact bind_fails _ fun _ => bind_fails _ fun _ => bind_fails _ fun _ => ⟨cause, rfl⟩
  | hull =>
      obtain ⟨cause, failed⟩ := Bytes.reads_u32.eq_error h
      rw [readRecord, failed]
      exact bind_fails _ fun _ => bind_fails _ fun _ => bind_fails _ fun _ => ⟨cause, rfl⟩
  | domain =>
      obtain ⟨cause, failed⟩ := readFlag_fails h
      rw [readRecord, failed]
      exact bind_fails _ fun _ => ⟨cause, rfl⟩
  | compute => exact absurd h (Nat.not_lt_zero _)
  | library => exact absurd h (Nat.not_lt_zero _)

/-! ## The whole payload -/

theorem length_record (b : Bytes) :
    (b.window 4 (b.u32At 0).toNat).length = min (b.u32At 0).toNat (b.length - 4) := by
  rw [Bytes.window, List.length_take, List.length_drop]

/-- With a whole record, its tables decide about a payload. -/
theorem parse_of_hasRecord {b : Bytes} {stage : Stage} (h : HasRecord b stage) :
    parse b stage =
      (factsAt b 4 stage).rangeFault?.elim (.ok (factsAt b 4 stage)) .error := by
  have record : readRecord (b.window 4 (b.u32At 0).toNat) stage = .ok (factsAt b 4 stage) := by
    rw [readRecord_of_le (by rw [length_record]; exact h.record), factsAt_window]
    exact Nat.le_trans h.record (Nat.min_le_left _ _)
  rw [parse, Bytes.reads_u32.eq_ok (by have := h.length; omega) (by decide)]
  dsimp only
  rw [← Bytes.window, record]
  dsimp only
  cases (factsAt b 4 stage).rangeFault? with
  | some fault => rfl
  | none => rfl

theorem parse_of_not_hasRecord {b : Bytes} {stage : Stage} (h : ¬ HasRecord b stage) :
    ∃ fault, parse b stage = .error fault := by
  rw [parse]
  by_cases length : 4 ≤ b.length
  · have short : (b.window 4 (b.u32At 0).toNat).length < recordLength stage := by
      rw [length_record]
      exact Nat.not_le.mp fun record => h ⟨length, record⟩
    obtain ⟨cause, failed⟩ := readRecord_of_short short
    rw [Bytes.reads_u32.eq_ok (by omega) (by decide)]
    dsimp only
    rw [← Bytes.window, failed]
    exact ⟨_, rfl⟩
  · obtain ⟨cause, failed⟩ := Bytes.reads_u32.eq_error (show b.length < 0 + 4 by omega)
    rw [failed]
    exact ⟨_, rfl⟩

theorem parse_eq_ok_iff {b : Bytes} {stage : Stage} {info : RuntimeInfo} :
    parse b stage = .ok info ↔ WellFormed b stage ∧ info = factsAt b 4 stage := by
  by_cases enough : HasRecord b stage
  case neg =>
      obtain ⟨fault, failed⟩ := parse_of_not_hasRecord enough
      rw [failed]
      exact iff_of_false (fun h => nomatch h) fun h => enough h.1.toHasRecord
  rw [parse_of_hasRecord enough]
  cases checked : (factsAt b 4 stage).rangeFault? with
  | some fault =>
      have outside : ¬ InTables b 4 stage := by
        rw [← rangeFault?_factsAt, checked]
        exact Option.some_ne_none fault
      exact iff_of_false (fun h => nomatch h) fun h => outside h.1.tables
  | none =>
      have inside := (rangeFault?_factsAt b 4 stage).mp checked
      constructor
      · intro h
        cases h
        exact ⟨⟨enough, inside⟩, rfl⟩
      · rintro ⟨-, rfl⟩
        rfl

/-- Only the bytes a stage needs decide about payloads that have them. -/
theorem parse_congr {a b : Bytes} {stage : Stage} (ha : HasRecord a stage) (hb : HasRecord b stage)
    (same : a.window 4 (recordLength stage) = b.window 4 (recordLength stage)) :
    parse a stage = parse b stage := by
  have facts : factsAt a 4 stage = factsAt b 4 stage := by
    rw [← factsAt_window a 4 (Nat.le_refl _), same, factsAt_window b 4 (Nat.le_refl _)]
  rw [parse_of_hasRecord ha, parse_of_hasRecord hb, facts]

/-! ## The names that are shown -/

/-- A stage and its facts, with `past` as the name of a place past its table. -/
def factLinesOr (past : String) : RuntimeInfo → List String
  | .geometry inputPrimitive topology streamMask positionPresent =>
    [" Geometry Shader",
     " InputPrimitive=" ++ inputPrimitives.getD inputPrimitive.toNat past,
     " OutputTopology=" ++ topologies.getD topology.toNat past,
     " OutputStreamMask=" ++ streamMask.toNat.repr,
     " OutputPositionPresent=" ++ flagText positionPresent]
  | .hull inputPoints outputPoints tessDomain primitive =>
    [" Hull Shader",
     " InputControlPointCount=" ++ inputPoints.toNat.repr,
     " OutputControlPointCount=" ++ outputPoints.toNat.repr,
     " Domain=" ++ tessDomains.getD tessDomain.toNat past,
     " OutputPrimitive=" ++ tessPrimitives.getD primitive.toNat past]
  | info => info.factLines

theorem factLinesOr_invalid (info : RuntimeInfo) : info.factLinesOr "invalid" = info.factLines := by
  cases info <;> rfl

theorem getD_inside {table : List String} {place : Nat} (h : place < table.length)
    (past past' : String) : table.getD place past = table.getD place past' := by
  rw [List.getD_eq_getElem?_getD, List.getD_eq_getElem?_getD, List.getElem?_eq_getElem h]
  rfl

/-- Inside the tables, no name is the one of a place past them. -/
theorem factLinesOr_of_inTables {b : Bytes} {place : Nat} {stage : Stage}
    (h : InTables b place stage) (past : String) :
    (factsAt b place stage).factLinesOr past = (factsAt b place stage).factLines := by
  rw [← factLinesOr_invalid]
  cases stage with
  | geometry =>
      have primitive : (b.u32At place).toNat < inputPrimitives.length := h.1
      have topology : (b.u32At (place + 4)).toNat < topologies.length := h.2
      simp only [factsAt, factLinesOr, getD_inside primitive past "invalid",
        getD_inside topology past "invalid"]
  | hull =>
      have tessDomain : (b.u32At (place + 8)).toNat < tessDomains.length := h.1
      have primitive : (b.u32At (place + 12)).toNat < tessPrimitives.length := h.2
      simp only [factsAt, factLinesOr, getD_inside tessDomain past "invalid",
        getD_inside primitive past "invalid"]
  | _ => rfl

/-! ## The same with a cursor -/

/-- The fields of a stage's record one behind the other. -/
def readRecordStrictly (record : Bytes) : Stage → Except ReadError RuntimeInfo
  | .vertex => do
    let (positionPresent, _) ← (Cursor.start record).u8
    return .vertex (positionPresent ≠ 0)
  | .pixel => do
    let (depthOutput, c) ← (Cursor.start record).u8
    let (sampleFrequency, _) ← c.u8
    return .pixel (depthOutput ≠ 0) (sampleFrequency ≠ 0)
  | .geometry => do
    let (inputPrimitive, c) ← (Cursor.start record).u32
    let (topology, c) ← c.u32
    let (streamMask, c) ← c.u32
    let (positionPresent, _) ← c.u8
    return .geometry inputPrimitive topology streamMask (positionPresent ≠ 0)
  | .hull => do
    let (inputPoints, c) ← (Cursor.start record).u32
    let (outputPoints, c) ← c.u32
    let (tessDomain, c) ← c.u32
    let (primitive, _) ← c.u32
    return .hull inputPoints outputPoints tessDomain primitive
  | .domain => do
    let (inputPoints, c) ← (Cursor.start record).u32
    let (positionPresent, _) ← c.u8
    return .domain inputPoints (positionPresent ≠ 0)
  | stage => .ok (.other stage)

/-- Reads the facts for a stage.  The record is what the cursor finds of it. -/
def parseStrictly (b : Bytes) (stage : Stage) : Except (ReadError ⊕ Malformed) RuntimeInfo :=
  match (Cursor.start b).u32 with
  | .error cause => .error (.inr (.runtimeInfo (.recordSize cause)))
  | .ok (declared, c) =>
    match c.read (min c.remaining declared.toNat) with
    | .error cause => .error (.inl cause)
    | .ok (record, _) =>
      match readRecordStrictly record stage with
      | .error cause => .error (.inr (.runtimeInfo (.record stage declared cause)))
      | .ok info =>
        match info.rangeFault? with
        | some fault => .error (.inr (.runtimeInfo fault))
        | none => .ok info

theorem bind_map {ε α β γ : Type} (x : Except ε α) (f : α → β) (g : β → Except ε γ) :
    (x.map f >>= g) = x >>= fun a => g (f a) := bind_map_left f x g

theorem readRecordStrictly_eq (record : Bytes) (stage : Stage) :
    readRecordStrictly record stage = readRecord record stage := by
  cases stage with
  | compute => rfl
  | library => rfl
  | _ =>
      simp only [readRecordStrictly, readRecord, readFlag, Cursor.start, Cursor.u32_eq,
        Cursor.u8_eq, bind_map, Nat.zero_add]

/-- What a cursor behind the size word finds of the record. -/
theorem read_record {b : Bytes} (length : 4 ≤ b.length) :
    ∃ c, Cursor.read ⟨b, 4⟩ (min (Cursor.remaining ⟨b, 4⟩) (b.u32At 0).toNat) =
      .ok (b.window 4 (b.u32At 0).toNat, c) := by
  have declared := (b.u32At 0).toNat_lt
  have inside : 4 + min (b.length - 4) (b.u32At 0).toNat ≤ b.length := by omega
  have small : 4 + min (b.length - 4) (b.u32At 0).toNat < addressLimit := by
    simp only [addressLimit]
    omega
  have cut : b.window 4 (min (b.length - 4) (b.u32At 0).toNat) = b.window 4 (b.u32At 0).toNat := by
    rw [Bytes.window, Bytes.window, Nat.min_comm, ← List.length_drop, ← List.take_eq_take_min]
  exact ⟨_, cut ▸ Cursor.read_inside inside small⟩

theorem parseStrictly_eq (b : Bytes) (stage : Stage) :
    parseStrictly b stage = (parse b stage).mapError fun fault => .inr (.runtimeInfo fault) := by
  rw [parseStrictly, parse, Cursor.start, Cursor.u32_eq]
  by_cases length : 4 ≤ b.length
  case neg =>
      obtain ⟨cause, failed⟩ := Bytes.reads_u32.eq_error (show b.length < 0 + 4 by omega)
      rw [failed]
      rfl
  obtain ⟨c, found⟩ := read_record length
  rw [Bytes.reads_u32.eq_ok (by omega) (by decide)]
  dsimp only [Except.map]
  rw [found, ← Bytes.window]
  dsimp only
  rw [readRecordStrictly_eq]
  cases readRecord (b.window 4 (b.u32At 0).toNat) stage with
  | error cause => rfl
  | ok info =>
      dsimp only
      cases info.rangeFault? with
      | some fault => rfl
      | none => rfl

/-! ## What reading accepts -/

/-- Reading accepts exactly the format.  It answers with the facts that stand in the record,
whose names all come from their tables, and looks at no byte past those the stage needs.
Every other payload ends in a fault of the facts. -/
theorem parse_accepts_records (b : Bytes) (stage : Stage) :
    ((∃ info, parse b stage = .ok info) ↔ WellFormed b stage) ∧
    (∀ info, parse b stage = .ok info →
      info = factsAt b 4 stage ∧ ∀ past, info.factLinesOr past = info.factLines) ∧
    (∀ other, HasRecord b stage → HasRecord other stage →
      other.window 4 (recordLength stage) = b.window 4 (recordLength stage) →
      parse other stage = parse b stage) ∧
    parseStrictly b stage = (parse b stage).mapError fun fault => .inr (.runtimeInfo fault) := by
  refine ⟨⟨?_, ?_⟩, ?_, ?_, parseStrictly_eq b stage⟩
  · rintro ⟨info, h⟩
    exact (parse_eq_ok_iff.mp h).1
  · intro wellFormed
    exact ⟨_, parse_eq_ok_iff.mpr ⟨wellFormed, rfl⟩⟩
  · intro info h
    obtain ⟨wellFormed, rfl⟩ := parse_eq_ok_iff.mp h
    exact ⟨rfl, factLinesOr_of_inTables wellFormed.tables⟩
  · intro other enough enough' same
    exact parse_congr enough' enough same

/-- A geometry stage's record with both places at the ends of their tables. -/
def lastPlaces : Bytes := [39, 5, 0xFFFFFFFF].flatMap (Bytes.ofNatLE 4) ++ [1]

/-- The record alone, with more declared than there is. -/
def overdeclared : Bytes := Bytes.ofNatLE 4 0xFFFFFFFF ++ lastPlaces

/-- The record with a byte behind it that is not declared. -/
def followed : Bytes := build lastPlaces ++ [7]

theorem parse_accepts_records_lastPlaces :
    parse overdeclared .geometry = .ok (.geometry 39 5 0xFFFFFFFF true) ∧
    parse followed .geometry = parse overdeclared .geometry ∧
    ∀ past, factLinesOr past (.geometry 39 5 0xFFFFFFFF true) =
      factLines (.geometry 39 5 0xFFFFFFFF true) := by
  have whole : HasRecord overdeclared .geometry := by constructor <;> decide +kernel
  have whole' : HasRecord followed .geometry := by constructor <;> decide +kernel
  have tables : InTables overdeclared 4 .geometry := by constructor <;> decide +kernel
  have facts : factsAt overdeclared 4 .geometry = .geometry 39 5 0xFFFFFFFF true := by
    decide +kernel
  obtain ⟨accepted, held, needed, -⟩ := parse_accepts_records overdeclared .geometry
  obtain ⟨info, read⟩ := accepted.mpr ⟨whole, tables⟩
  obtain ⟨rfl, names⟩ := held _ read
  rw [facts] at read names
  exact ⟨read, needed _ whole whole' (by decide +kernel), names⟩

end ShaderReport.RuntimeInfo
