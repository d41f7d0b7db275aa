/-
# The signature format

`WellFormed b` states the format on the bytes alone.  A payload has room for its two header
words; and if it declares any elements, their table lies behind those words and inside the
payload, and at every name offset of the table a name stands.  Nothing else is asked: the
names may lie in the header, in the table or inside one another.

`parse` accepts exactly the well-formed payloads, and an element it answers with is the one
whose record stands at its place in the table (`RecordAt`).  The argument follows the
table: one record (`readElement_eq_ok_iff`), then the table by induction on the number of
records left (`readElements_eq_ok_iff`), then the header.

## No read leaves its bytes

`readElement` uses the total readers, for which a byte past the end counts as zero.
`parseStrictly` reads the same payload with a cursor and checked readers only, with every sum
of offsets held against the 64-bit limit.  A record that cannot be read or a sum that is
too large ends it on the left of its errors, every fault of a payload on the right, among the
faults of all payloads.  `parseStrictly_eq` says that the left side never occurs: the check
of the table makes every record readable, and only names are left to fail.
-/
import ShaderReport.Malformed
import ShaderReport.Proofs.Bytes.Cursors
import ShaderReport.Proofs.Bytes.Names

namespace ShaderReport.RegisterSignature

/-- The number of elements a payload declares. -/
def declaredCount (b : Bytes) : Nat := (b.u32At 0).toNat

/-- Where a payload's table begins. -/
def tableStart (b : Bytes) : Nat := (b.u32At 4).toNat

/-- Where the name of the record at a place stands. -/
def nameOffset (b : Bytes) (place : Nat) : Nat := (b.u32At (place + 4)).toNat

/-- A table behind the header and inside the payload, with a name for each of its records. -/
structure HoldsTable (b : Bytes) : Prop where
  start : 8 ≤ tableStart b
  stop : tableStart b + 32 * declaredCount b ≤ b.length
  names : ∀ i < declaredCount b, b.HoldsName (nameOffset b (tableStart b + 32 * i))

/-- The format: two header words, and a table unless it would be empty. -/
structure WellFormed (b : Bytes) : Prop where
  length : 8 ≤ b.length
  table : declaredCount b = 0 ∨ HoldsTable b

/-- The element whose record stands at a place. -/
structure RecordAt (b : Bytes) (place : Nat) (e : RegisterElement) : Prop where
  stream : e.stream = b.u32At place
  name : b.NameAt (nameOffset b place) e.name
  index : e.index = b.u32At (place + 8)
  systemValue : e.systemValueCode = b.u32At (place + 12)
  format : e.formatCode = b.u32At (place + 16)
  register : e.register = b.u32At (place + 20)
  mask : e.mask = b.u8At (place + 24)
  usage : e.usage = b.u8At (place + 25)
  minPrecision : e.minPrecision = b.u32At (place + 28)

/-! ## One record -/

/-- The element of the record at a place, with a given name. -/
def named (b : Bytes) (place : Nat) (name : String) : RegisterElement where
  stream := b.u32At place
  name := name
  index := b.u32At (place + 8)
  systemValueCode := b.u32At (place + 12)
  formatCode := b.u32At (place + 16)
  register := b.u32At (place + 20)
  mask := b.u8At (place + 24)
  usage := b.u8At (place + 25)
  minPrecision := b.u32At (place + 28)

theorem readElement_drop (b : Bytes) (place : Nat) :
    readElement b.index (b.drop place) =
      (b.readString (nameOffset b place)).map (named b place) := by
  simp only [readElement, Indexed.readString_index, Bytes.reads_u32.drop, Bytes.reads_u8.drop]
  rfl

theorem readElement_eq_ok_iff {b : Bytes} {place : Nat} {e : RegisterElement} :
    readElement b.index (b.drop place) = .ok e ↔ RecordAt b place e := by
  rw [readElement_drop]
  constructor
  · intro read
    cases found : b.readString (nameOffset b place) with
    | error cause =>
        rw [found] at read
        cases read
    | ok name =>
        rw [found] at read
        cases read
        exact ⟨rfl, Bytes.readString_eq_ok_iff.mp found, rfl, rfl, rfl, rfl, rfl, rfl, rfl⟩
  · intro h
    have same : named b place e.name = e := by
      obtain ⟨stream, -, index, systemValue, format, register, mask, usage, precision⟩ := h
      cases e
      simp only [named, RegisterElement.mk.injEq, true_and]
      exact ⟨stream.symm, index.symm, systemValue.symm, format.symm, register.symm, mask.symm,
        usage.symm, precision.symm⟩
    rw [Bytes.readString_eq_ok_iff.mpr h.name, Except.map, same]

theorem exists_recordAt_iff {b : Bytes} {place : Nat} :
    (∃ e, RecordAt b place e) ↔ b.HoldsName (nameOffset b place) := by
  rw [← Bytes.exists_nameAt_iff]
  constructor
  · rintro ⟨e, h⟩
    exact ⟨e.name, h.name⟩
  · rintro ⟨name, h⟩
    exact ⟨named b place name, rfl, h, rfl, rfl, rfl, rfl, rfl, rfl, rfl⟩

/-! ## The table -/

/-- Elements one behind the other, the first of them at a place. -/
def RecordsFrom (b : Bytes) (place : Nat) (elements : List RegisterElement) : Prop :=
  ∀ i (h : i < elements.length), RecordAt b (place + 32 * i) elements[i]

theorem recordsFrom_cons {b : Bytes} {place : Nat} {e : RegisterElement}
    {rest : List RegisterElement} :
    RecordsFrom b place (e :: rest) ↔ RecordAt b place e ∧ RecordsFrom b (place + 32) rest := by
  constructor
  · intro h
    refine ⟨h 0 (Nat.succ_pos _), ?_⟩
    intro i hi
    have next := h (i + 1) (Nat.succ_lt_succ hi)
    rwa [show place + 32 * (i + 1) = place + 32 + 32 * i by omega] at next
  · rintro ⟨first, others⟩ i hi
    cases i with
    | zero => exact first
    | succ i =>
        have next := others i (Nat.lt_of_succ_lt_succ hi)
        rwa [show place + 32 + 32 * i = place + 32 * (i + 1) by omega] at next

/-- Reading a table succeeds exactly with the elements that stand there. -/
theorem readElements_eq_ok_iff {b : Bytes} {place count index : Nat}
    {elements : List RegisterElement} :
    readElements b.index count index (b.drop place) = .ok elements ↔
      elements.length = count ∧ RecordsFrom b place elements := by
  induction count generalizing place index elements with
  | zero =>
      rw [readElements]
      constructor
      · intro h
        cases h
        exact ⟨rfl, fun i hi => absurd hi (Nat.not_lt_zero i)⟩
      · rintro ⟨none, -⟩
        rw [List.eq_nil_of_length_eq_zero none]
  | succ count ih =>
      rw [readElements, recordLength, List.drop_drop]
      constructor
      · intro h
        cases first : readElement b.index (b.drop place) with
        | error cause =>
            rw [first] at h
            cases h
        | ok e =>
            cases others : readElements b.index count (index + 1) (b.drop (place + 32)) with
            | error fault =>
                simp only [first, others] at h
                cases h
            | ok rest =>
                simp only [first, others] at h
                cases h
                obtain ⟨length, records⟩ := ih.mp others
                exact ⟨congrArg (· + 1) length,
                  recordsFrom_cons.mpr ⟨readElement_eq_ok_iff.mp first, records⟩⟩
      · rintro ⟨length, records⟩
        cases elements with
        | nil => cases length
        | cons e rest =>
            obtain ⟨first, others⟩ := recordsFrom_cons.mp records
            rw [readElement_eq_ok_iff.mpr first]
            simp only [ih.mpr ⟨Nat.succ.inj length, others⟩]

/-- There are elements to read exactly if there are names for them. -/
theorem exists_readElements_iff {b : Bytes} {place count index : Nat} :
    (∃ elements, readElements b.index count index (b.drop place) = .ok elements) ↔
      ∀ i < count, b.HoldsName (nameOffset b (place + 32 * i)) := by
  simp only [readElements_eq_ok_iff]
  constructor
  · rintro ⟨elements, rfl, records⟩ i hi
    exact exists_recordAt_iff.mp ⟨_, records i hi⟩
  · intro names
    induction count generalizing place with
    | zero => exact ⟨[], rfl, fun i hi => absurd hi (Nat.not_lt_zero i)⟩
    | succ count ih =>
        obtain ⟨e, first⟩ := exists_recordAt_iff.mpr (names 0 (Nat.succ_pos _))
        have others : ∀ i < count, b.HoldsName (nameOffset b (place + 32 + 32 * i)) := by
          intro i hi
          have next := names (i + 1) (Nat.succ_lt_succ hi)
          rwa [show place + 32 * (i + 1) = place + 32 + 32 * i by omega] at next
        obtain ⟨rest, length, records⟩ := ih others
        exact ⟨e :: rest, congrArg (· + 1) length, recordsFrom_cons.mpr ⟨first, records⟩⟩

/-! ## The whole payload -/

theorem parse_of_short {b : Bytes} (h : b.length < 8) : ∃ fault, parse b = .error fault := by
  rw [parse]
  by_cases count : 4 ≤ b.length
  · obtain ⟨cause, failed⟩ := Bytes.reads_u32.eq_error (show b.length < 4 + 4 by omega)
    rw [Bytes.reads_u32.eq_ok (by omega) (by decide), failed]
    exact ⟨_, rfl⟩
  · obtain ⟨cause, failed⟩ := Bytes.reads_u32.eq_error (show b.length < 0 + 4 by omega)
    rw [failed]
    exact ⟨_, rfl⟩

/-- With its two words in place, the count and then the table decide about a payload. -/
theorem parse_of_header {b : Bytes} (h : 8 ≤ b.length) :
    parse b =
      if declaredCount b = 0 then .ok ⟨[]⟩
      else if tableStart b < 8 ∨ b.length < tableStart b + declaredCount b * 32 then
        .error (.tableRange (tableStart b) (tableStart b + declaredCount b * 32) b.length)
      else (readElements b.index (declaredCount b) 0 (b.drop (tableStart b))).map (⟨·⟩) := by
  have none : b.u32At 0 = 0 ↔ declaredCount b = 0 := UInt32.toNat_inj.symm
  rw [parse, Bytes.reads_u32.eq_ok (by omega) (by decide), Bytes.reads_u32.eq_ok (by omega) (by decide)]
  simp only [none]
  rfl

/-- The elements a signature has to hold: as many as declared, each where its record is. -/
structure Holds (b : Bytes) (s : RegisterSignature) : Prop where
  count : s.elements.length = declaredCount b
  records : RecordsFrom b (tableStart b) s.elements

theorem parse_eq_ok_iff {b : Bytes} {s : RegisterSignature} :
    parse b = .ok s ↔ WellFormed b ∧ Holds b s := by
  by_cases length : 8 ≤ b.length
  case neg =>
      obtain ⟨fault, failed⟩ := parse_of_short (Nat.not_le.mp length)
      rw [failed]
      exact iff_of_false (fun h => nomatch h) fun h => length h.1.length
  rw [parse_of_header length]
  by_cases none : declaredCount b = 0
  · rw [if_pos none]
    constructor
    · intro h
      cases h
      exact ⟨⟨length, .inl none⟩, none.symm, fun i hi => absurd hi (Nat.not_lt_zero i)⟩
    · rintro ⟨-, held⟩
      have empty : s.elements = [] := List.eq_nil_of_length_eq_zero (held.count.trans none)
      rw [← empty]
  rw [if_neg none]
  by_cases outside : tableStart b < 8 ∨ b.length < tableStart b + declaredCount b * 32
  · rw [if_pos outside]
    constructor
    · intro h
      cases h
    · rintro ⟨wellFormed, -⟩
      have table := wellFormed.table.resolve_left none
      have := table.start
      have := table.stop
      omega
  rw [if_neg outside]
  constructor
  · intro h
    cases read : readElements b.index (declaredCount b) 0 (b.drop (tableStart b)) with
    | error fault =>
        rw [read] at h
        cases h
    | ok elements =>
        rw [read] at h
        cases h
        obtain ⟨count, records⟩ := readElements_eq_ok_iff.mp read
        have names := exists_readElements_iff.mp ⟨elements, read⟩
        exact ⟨⟨length, .inr ⟨by omega, by omega, names⟩⟩, count, records⟩
  · rintro ⟨-, count, records⟩
    rw [readElements_eq_ok_iff.mpr ⟨count, records⟩]
    rfl

theorem WellFormed.exists_holds {b : Bytes} (h : WellFormed b) : ∃ s, Holds b s := by
  rcases h.table with none | table
  · exact ⟨⟨[]⟩, none.symm, fun i hi => absurd hi (Nat.not_lt_zero i)⟩
  · have named : ∃ elements,
        readElements b.index (declaredCount b) 0 (b.drop (tableStart b)) = .ok elements :=
      exists_readElements_iff.mpr table.names
    obtain ⟨elements, read⟩ := named
    obtain ⟨count, records⟩ := readElements_eq_ok_iff.mp read
    exact ⟨⟨elements⟩, count, records⟩

/-! ## The same with a cursor and checked sums -/

/-- The end of a range, if it is a 64-bit offset. -/
def rangeEnd (offset length : Nat) : Except ReadError Nat :=
  if addressLimit ≤ offset + length then .error (.overflow offset length)
  else .ok (offset + length)

/-- A record's fields one behind the other: where its name stands, and the element without
it.  The two bytes in front of the last word are read and not used. -/
def readRecord (c : Cursor) : Except ReadError (UInt32 × RegisterElement) := do
  let (stream, c) ← c.u32
  let (nameOffset, c) ← c.u32
  let (index, c) ← c.u32
  let (systemValueCode, c) ← c.u32
  let (formatCode, c) ← c.u32
  let (register, c) ← c.u32
  let (mask, c) ← c.u8
  let (usage, c) ← c.u8
  let (_, c) ← c.u16
  let (minPrecision, _) ← c.u32
  return (nameOffset,
    ⟨stream, "", index, systemValueCode, formatCode, register, mask, usage, minPrecision⟩)

/-- The element of a table that begins at `start`. -/
def readElementStrictly (c : Cursor) (start index : Nat) :
    Except (ReadError ⊕ Malformed) RegisterElement :=
  match rangeEnd start (index * recordLength) with
  | .error cause => .error (.inl cause)
  | .ok place =>
    match c.fork place with
    | .error cause => .error (.inl cause)
    | .ok record =>
      match readRecord record with
      | .error cause => .error (.inl cause)
      | .ok (nameOffset, e) =>
        match c.stringAt nameOffset.toNat with
        | .error cause => .error (.inr (.signature (.element index cause)))
        | .ok name => .ok { e with name }

/-- So many elements of a table, from a given one on. -/
def readElementsStrictly (c : Cursor) (start : Nat) :
    (count index : Nat) → Except (ReadError ⊕ Malformed) (List RegisterElement)
  | 0, _ => .ok []
  | count + 1, index =>
    match readElementStrictly c start index with
    | .error fault => .error fault
    | .ok e =>
      match readElementsStrictly c start count (index + 1) with
      | .error fault => .error fault
      | .ok rest => .ok (e :: rest)

/-- Reads a signature. -/
def parseStrictly (b : Bytes) : Except (ReadError ⊕ Malformed) RegisterSignature :=
  match (Cursor.start b).u32 with
  | .error cause => .error (.inr (.signature (.count cause)))
  | .ok (count, c) =>
    match c.u32 with
    | .error cause => .error (.inr (.signature (.tableOffset cause)))
    | .ok (start, c) =>
      if count = 0 then .ok ⟨[]⟩
      else
        match rangeEnd 0 (count.toNat * recordLength) with
        | .error cause => .error (.inl cause)
        | .ok length =>
          match rangeEnd start.toNat length with
          | .error cause => .error (.inl cause)
          | .ok stop =>
            if start.toNat < headerLength ∨ b.length < stop then
              .error (.inr (.signature (.tableRange start.toNat stop b.length)))
            else (readElementsStrictly c start.toNat count.toNat 0).map (⟨·⟩)

/-- A fault of a signature among those of all payloads, none of them a read that leaves its
bytes. -/
def asMalformed (fault : SignatureFault) : ReadError ⊕ Malformed := .inr (.signature fault)

theorem rangeEnd_eq_ok {offset length : Nat} (h : offset + length < addressLimit) :
    rangeEnd offset length = .ok (offset + length) := if_neg (Nat.not_le.mpr h)

theorem readRecord_inside {b : Bytes} {place : Nat} (h : place + 32 ≤ b.length)
    (small : place + 32 < addressLimit) :
    readRecord ⟨b, place⟩ = .ok (b.u32At (place + 4), named b place "") := by
  have word : ∀ n, n + 4 ≤ 32 → Cursor.u32 ⟨b, place + n⟩ =
      .ok (b.u32At (place + n), ⟨b, place + (n + 4)⟩) :=
    fun n hn => Cursor.word_inside Bytes.reads_u32 (by omega) (by omega)
  have byte : ∀ n, n + 1 ≤ 32 → Cursor.u8 ⟨b, place + n⟩ =
      .ok (b.u8At (place + n), ⟨b, place + (n + 1)⟩) :=
    fun n hn => Cursor.word_inside Bytes.reads_u8 (by omega) (by omega)
  have half : Cursor.u16 ⟨b, place + 26⟩ = .ok (b.u16At (place + 26), ⟨b, place + 28⟩) :=
    Cursor.word_inside Bytes.reads_u16 (by omega) (by omega)
  have first : Cursor.u32 ⟨b, place⟩ = .ok (b.u32At place, ⟨b, place + 4⟩) :=
    word 0 (by decide)
  simp only [readRecord, first, word 4 (by decide), word 8 (by decide), word 12 (by decide),
    word 16 (by decide), word 20 (by decide), byte 24 (by decide), byte 25 (by decide), half,
    word 28 (by decide), bind, Except.bind]
  rfl

theorem readElementStrictly_eq {b : Bytes} {start index : Nat} (position : Nat)
    (h : start + index * 32 + 32 ≤ b.length) (small : start + index * 32 + 32 < addressLimit) :
    readElementStrictly ⟨b, position⟩ start index =
      (readElement b.index (b.drop (start + index * 32))).mapError
        fun cause => asMalformed (.element index cause) := by
  have place : rangeEnd start (index * recordLength) = .ok (start + index * 32) :=
    rangeEnd_eq_ok (show start + index * 32 < addressLimit by omega)
  have record : Cursor.fork ⟨b, position⟩ (start + index * 32) = .ok ⟨b, start + index * 32⟩ :=
    if_neg (show ¬ b.length < start + index * 32 by omega)
  rw [readElementStrictly, place]
  dsimp only
  rw [record]
  dsimp only
  rw [readRecord_inside h small, readElement_drop]
  dsimp only [Cursor.stringAt]
  rw [← nameOffset]
  cases b.readString (nameOffset b (start + index * 32)) with
  | error cause => rfl
  | ok name => rfl

/-- The table's range makes every record readable. -/
theorem readElementsStrictly_eq {b : Bytes} {start n : Nat} (position : Nat)
    (h : start + n * 32 ≤ b.length) (small : start + n * 32 < addressLimit)
    {count index : Nat} (left : index + count ≤ n) :
    readElementsStrictly ⟨b, position⟩ start count index =
      (readElements b.index count index (b.drop (start + index * 32))).mapError asMalformed := by
  induction count generalizing index with
  | zero => rfl
  | succ count ih =>
      -- the cursor goes to each record from the table's start, the other reader from the last one
      have next : (b.drop (start + index * 32)).drop recordLength =
          b.drop (start + (index + 1) * 32) := by
        rw [List.drop_drop, recordLength]
        congr 1
        omega
      rw [readElementsStrictly, readElementStrictly_eq position (by omega) (by omega), ih (by omega),
        readElements, next]
      cases readElement b.index (b.drop (start + index * 32)) with
      | error cause => rfl
      | ok e =>
          cases readElements b.index count (index + 1) (b.drop (start + (index + 1) * 32)) with
          | error fault => rfl
          | ok rest => rfl

theorem parseStrictly_eq (b : Bytes) : parseStrictly b = (parse b).mapError asMalformed := by
  rw [parseStrictly, parse, Cursor.start, Cursor.u32_eq]
  cases b.readU32 0 with
  | error cause => rfl
  | ok count =>
      dsimp only [Except.map]
      rw [Cursor.u32_eq]
      cases b.readU32 4 with
      | error cause => rfl
      | ok start =>
          dsimp only [Except.map]
          by_cases none : count = 0
          · rw [if_pos none, if_pos none]
            rfl
          have small : start.toNat + count.toNat * recordLength < addressLimit := by
            have := start.toNat_lt
            have := count.toNat_lt
            simp only [addressLimit, recordLength]
            omega
          have length : rangeEnd 0 (count.toNat * recordLength) =
              .ok (count.toNat * recordLength) := by
            rw [rangeEnd_eq_ok (by omega), Nat.zero_add]
          rw [if_neg none, if_neg none, length]
          dsimp only
          rw [rangeEnd_eq_ok small]
          dsimp only
          by_cases outside : start.toNat < headerLength ∨
              b.length < start.toNat + count.toNat * recordLength
          · rw [if_pos outside, if_pos outside]
            rfl
          · rw [if_neg outside, if_neg outside]
            simp only [headerLength, recordLength] at outside small
            rw [readElementsStrictly_eq _ (by omega) small (Nat.le_of_eq (Nat.zero_add _)),
              Nat.zero_mul, Nat.add_zero]
            cases readElements b.index count.toNat 0 (b.drop start.toNat) with
            | error fault => rfl
            | ok elements => rfl

/-! ## What reading accepts -/

/-- Reading accepts exactly the format.  It answers with as many elements as are declared,
each with the fields of its record and the name that stands at its offset.  Every other
payload ends in a fault of a signature, and no read of a record leaves the payload. -/
theorem parse_accepts_signatures (b : Bytes) :
    ((∃ s, parse b = .ok s) ↔ WellFormed b) ∧
    (∀ s, parse b = .ok s → s.elements.length = declaredCount b ∧
      ∀ i (h : i < s.elements.length), RecordAt b (tableStart b + 32 * i) s.elements[i]) ∧
    parseStrictly b = (parse b).mapError fun fault => .inr (.signature fault) := by
  refine ⟨⟨?_, ?_⟩, ?_, parseStrictly_eq b⟩
  · rintro ⟨s, h⟩
    exact (parse_eq_ok_iff.mp h).1
  · intro wellFormed
    obtain ⟨s, held⟩ := wellFormed.exists_holds
    exact ⟨s, parse_eq_ok_iff.mpr ⟨wellFormed, held⟩⟩
  · intro s h
    obtain ⟨-, held⟩ := parse_eq_ok_iff.mp h
    exact ⟨held.count, held.records⟩

/-- A payload that ends with its table: the first name stands in the header, the second in
the field that says where it stands. -/
def crowded : Bytes :=
  [2, 8, 0, 0, 5, 1, 3, 0, 0x30F, 0, 1, 44, 0, 64, 2, 0xFFFFFFFF, 1, 7].flatMap (Bytes.ofNatLE 4)

/-- The two elements in it. -/
def crowdedElements : List RegisterElement :=
  [⟨0, "\x02", 5, 1, 3, 0, 0x0F, 3, 0⟩, ⟨1, ",", 0, 64, 2, 0xFFFFFFFF, 1, 0, 7⟩]

theorem parse_accepts_signatures_crowded :
    parse crowded = .ok ⟨crowdedElements⟩ ∧ WellFormed crowded ∧
    ∀ i (h : i < crowdedElements.length), RecordAt crowded (8 + 32 * i) crowdedElements[i] := by
  have answer : (parse crowded).toOption = some ⟨crowdedElements⟩ := by decide +kernel
  have read : parse crowded = .ok ⟨crowdedElements⟩ := by
    cases found : parse crowded with
    | error fault => simp [found, Except.toOption] at answer
    | ok s => simpa [found, Except.toOption] using answer
  obtain ⟨accepted, held, -⟩ := parse_accepts_signatures crowded
  exact ⟨read, accepted.mp ⟨_, read⟩, (held _ read).2⟩

end ShaderReport.RegisterSignature
