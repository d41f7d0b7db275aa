/-
# The container format

`WellFormed b` states the format on the bytes alone: the length, the magic, the
version, the declared size, the number of parts, and for every entry of the
offset table where the part's header and payload have to lie.  It mentions no
reader that can fail and no order of checks.

`Container.parse` accepts exactly the well-formed byte strings
(`parse_ok_iff_wellFormed`), and what it returns is determined by the bytes
(`parse_eq_ok_iff`).  Everything said about parsed containers elsewhere starts
from this second statement.

## No read leaves its bytes

`parse` uses the total readers, for which a byte past the end counts as zero.
That would hide a read that goes too far, so `parseStrictly` is written with the
checked readers throughout: every field of the header, the cut at the declared
size, the offset table, each entry of it, and each field of a part's header.  A
read that leaves its bytes ends it with that error, on the left of the sum.
`parseStrictly_eq` says that this never happens.
-/
import ShaderReport.Container.Basic
import ShaderReport.Proofs.Bytes.Windows

namespace ShaderReport

/-! ## Tags -/

/-- The tag at the front of a string is read off its first four bytes. -/
theorem Tag.ofBytes_eq_iff {b : Bytes} (h : 4 ≤ b.length) (tag : Tag) :
    Tag.ofBytes b = tag ↔ b.take 4 = tag.toBytes := by
  match b, h with
  | b0 :: b1 :: b2 :: b3 :: rest, _ =>
      obtain ⟨t0, t1, t2, t3⟩ := tag
      simp [Tag.ofBytes, Tag.toBytes, Bytes.u8At]

theorem Tag.ofBytes_take (b : Bytes) {n : Nat} (h : 4 ≤ n) :
    Tag.ofBytes (b.take n) = Tag.ofBytes b := by
  have same : ∀ i < 4, Bytes.u8At (b.take n) i = b.u8At i := by
    intro i hi
    rw [Bytes.u8At, Bytes.u8At, List.getD_eq_getElem?_getD, List.getD_eq_getElem?_getD,
      List.getElem?_take_of_lt (by omega)]
  simp only [Tag.ofBytes, same 0 (by decide), same 1 (by decide), same 2 (by decide),
    same 3 (by decide)]

theorem Tag.ofBytes_append (tag : Tag) (rest : Bytes) :
    Tag.ofBytes (tag.toBytes ++ rest) = tag := by
  refine (Tag.ofBytes_eq_iff ?_ tag).mpr ?_
  · simp [Tag.toBytes]
  · simp [Tag.toBytes]

/-! ## One part -/

namespace Part

/-- The part whose header stands at an offset of a container. -/
def standingAt (view : Bytes) (offset : UInt32) : Part where
  tag := Tag.ofBytes (view.window offset.toNat 8)
  offset := offset
  size := view.u32At (offset.toNat + 4)

/-- Whether a part lies behind the offset table and inside the container. -/
def Fits (view : Bytes) (tableEnd : Nat) (offset : UInt32) : Prop :=
  tableEnd ≤ offset.toNat ∧ offset.toNat + 8 ≤ view.length ∧
    offset.toNat + 8 + (view.u32At (offset.toNat + 4)).toNat ≤ view.length

/-- The range of a payload is no longer than a 64-bit offset can tell. -/
theorem range_lt_addressLimit (offset size : UInt32) :
    offset.toNat + 8 + size.toNat < addressLimit := by
  have ho := offset.toNat_lt
  have hs := size.toNat_lt
  simp only [addressLimit]
  omega

/-- A part that fits is read as it stands. -/
theorem read_of_fits {view : Bytes} {tableEnd : Nat} {offset : UInt32}
    (h : Fits view tableEnd offset) (index : Nat) :
    Part.read view.index tableEnd index offset = .ok (standingAt view offset) := by
  obtain ⟨behind, header, payload⟩ := h
  have small := range_lt_addressLimit offset (view.u32At (offset.toNat + 4))
  have head : view.index.slice offset.toNat 8 = .ok (view.window offset.toNat 8) := by
    rw [Indexed.slice_index, Bytes.slice_eq_ok header (by omega)]
  have range : checkRange (offset.toNat + 8) (view.u32At (offset.toNat + 4)).toNat
      view.index.length = .ok () := by
    rw [checkRange, Indexed.length_index, if_neg (Nat.not_le.mpr small), if_pos payload]
  rw [Part.read, if_neg (Nat.not_lt.mpr behind)]
  simp only [Container.partHeaderLength, head,
    Bytes.reads_u32.inWindow view offset.toNat (show 4 + 4 ≤ 8 by decide), range]
  rfl

/-- A part that is read fits. -/
theorem fits_of_read {view : Bytes} {tableEnd index : Nat} {offset : UInt32} {p : Part}
    (h : Part.read view.index tableEnd index offset = .ok p) : Fits view tableEnd offset := by
  simp only [Part.read, Container.partHeaderLength] at h
  by_cases behind : offset.toNat < tableEnd
  · rw [if_pos behind] at h
    cases h
  rw [if_neg behind, Indexed.slice_index, Indexed.length_index] at h
  by_cases header : offset.toNat + 8 ≤ view.length
  · have small := range_lt_addressLimit offset (view.u32At (offset.toNat + 4))
    rw [Bytes.slice_eq_ok header (by omega)] at h
    simp only [Bytes.reads_u32.inWindow view offset.toNat (show 4 + 4 ≤ 8 by decide), checkRange,
      if_neg (Nat.not_le.mpr small)] at h
    by_cases payload : offset.toNat + 8 + (view.u32At (offset.toNat + 4)).toNat ≤ view.length
    · exact ⟨Nat.not_lt.mp behind, header, payload⟩
    · rw [if_neg payload] at h
      cases h
  · obtain ⟨cause, hc⟩ := Bytes.slice_eq_error (Nat.not_le.mp header)
    rw [hc] at h
    cases h

/-- Reading all parts succeeds exactly if they all fit, and finds what stands there. -/
theorem readAll_eq_ok_iff {view : Bytes} {tableEnd index : Nat} {offsets : List UInt32}
    {parts : List Part} :
    Part.readAll view.index tableEnd index offsets = .ok parts ↔
      (∀ o ∈ offsets, Fits view tableEnd o) ∧ parts = offsets.map (standingAt view) := by
  induction offsets generalizing index parts with
  | nil =>
      rw [Part.readAll]
      constructor
      · intro h
        cases h
        exact ⟨List.forall_mem_nil _, rfl⟩
      · rintro ⟨_, rfl⟩
        rfl
  | cons offset rest ih =>
      rw [Part.readAll]
      constructor
      · intro h
        cases hr : Part.read view.index tableEnd index offset with
        | error fault =>
            rw [hr] at h
            cases h
        | ok p =>
            have fits := fits_of_read hr
            rw [hr] at h
            rw [read_of_fits fits index] at hr
            cases hr
            cases ha : Part.readAll view.index tableEnd (index + 1) rest with
            | error fault =>
                simp only [ha] at h
                cases h
            | ok found =>
                simp only [ha] at h
                cases h
                obtain ⟨all, rfl⟩ := ih.mp ha
                exact ⟨List.forall_mem_cons.mpr ⟨fits, all⟩, rfl⟩
      · rintro ⟨all, rfl⟩
        obtain ⟨fits, others⟩ := List.forall_mem_cons.mp all
        rw [read_of_fits fits index]
        simp only [ih.mpr ⟨others, rfl⟩]
        rfl

end Part

/-! ## The whole container -/

namespace Container

/-- The size a byte string declares. -/
def declaredSize (b : Bytes) : Nat := (b.u32At 24).toNat

/-- The number of parts a byte string declares. -/
def declaredCount (b : Bytes) : Nat := (b.u32At 28).toNat

/-- The entries of the offset table. -/
def offsetAt (b : Bytes) (i : Nat) : UInt32 := b.u32At (32 + 4 * i)

/-- What the header of a container has to state. -/
structure HeaderFits (b : Bytes) : Prop where
  length : 32 ≤ b.length
  magic : b.take 4 = Tag.container.toBytes
  version : b.u16At 20 = 1
  size_ge : 32 ≤ declaredSize b
  size_le : declaredSize b ≤ b.length
  count_le : declaredCount b ≤ 4096
  count_fits : 12 * declaredCount b ≤ declaredSize b - 32

/-- The format: the header, and where each part of the table has to lie. -/
structure WellFormed (b : Bytes) : Prop extends HeaderFits b where
  parts : ∀ i < declaredCount b,
    32 + 4 * declaredCount b ≤ (offsetAt b i).toNat ∧
    (offsetAt b i).toNat + 8 ≤ declaredSize b ∧
    (offsetAt b i).toNat + 8 + (b.u32At ((offsetAt b i).toNat + 4)).toNat ≤ declaredSize b

/-- The bytes within the declared size. -/
def viewOf (b : Bytes) : Bytes := b.take (declaredSize b)

/-- The offset table, read off the whole byte string. -/
def offsets (b : Bytes) : List UInt32 := (List.range (declaredCount b)).map (offsetAt b)

/-- The container a byte string holds. -/
def ofBytes (b : Bytes) : Container where
  header := Header.read b
  view := viewOf b
  parts := (offsets b).map (Part.standingAt (viewOf b))

theorem HeaderFits.length_view {b : Bytes} (h : HeaderFits b) :
    (viewOf b).length = declaredSize b := by
  rw [viewOf, List.length_take, Nat.min_eq_left h.size_le]

theorem HeaderFits.tableEnd_le {b : Bytes} (h : HeaderFits b) :
    32 + 4 * declaredCount b ≤ declaredSize b := by
  have := h.size_ge
  have := h.count_fits
  omega

theorem offsetTable_eq {b : Bytes} (h : HeaderFits b) :
    offsetTable (viewOf b) (Header.read b) = offsets b := by
  have table := h.tableEnd_le
  have inside : ((viewOf b).window 32 (4 * declaredCount b)).length = 4 * declaredCount b :=
    Bytes.length_window (by rw [h.length_view]; exact table)
  show Bytes.words32 ((viewOf b).window 32 (4 * declaredCount b)) = offsets b
  rw [Bytes.words32_eq inside, offsets]
  refine List.map_congr_left ?_
  intro i hi
  have below : i < declaredCount b := List.mem_range.mp hi
  rw [Bytes.reads_u32.inWindow _ _ (by omega), viewOf, Bytes.reads_u32.take (by omega), offsetAt]

theorem countFits_iff {b : Bytes} :
    (Header.read b).countFits = true ↔
      declaredCount b ≤ 4096 ∧ 12 * declaredCount b ≤ declaredSize b - 32 := by
  show (decide (declaredCount b ≤ 4096) && decide (declaredCount b ≤ (declaredSize b - 32) / 12)) =
    true ↔ _
  rw [Bool.and_eq_true, decide_eq_true_eq, decide_eq_true_eq]
  omega

/-- The checks that are made of a header add up to a header that fits. -/
theorem headerFits_of_checks {b : Bytes} (length : ¬ b.length < headerLength)
    (magic : ¬ (Header.read b).magic ≠ Tag.container)
    (version : ¬ (Header.read b).major ≠ majorVersion)
    (size_ge : ¬ (Header.read b).size.toNat < headerLength)
    (size_le : ¬ b.length < (Header.read b).size.toNat)
    (count : ¬ ¬ (Header.read b).countFits = true) : HeaderFits b := by
  obtain ⟨count_le, count_fits⟩ := countFits_iff.mp (Decidable.not_not.mp count)
  have length' : 32 ≤ b.length := Nat.not_lt.mp length
  have front : 4 ≤ b.length := Nat.le_trans (by decide) length'
  exact
    { length := length'
      magic := (Tag.ofBytes_eq_iff front _).mp (Decidable.not_not.mp magic)
      version := Decidable.not_not.mp version
      size_ge := Nat.not_lt.mp size_ge
      size_le := Nat.not_lt.mp size_le
      count_le := count_le
      count_fits := count_fits }

/-- A header that fits passes every check, and the parts decide. -/
theorem parse_of_headerFits {b : Bytes} (h : HeaderFits b) :
    parse b =
      match Part.readAll (viewOf b).index (32 + 4 * declaredCount b) 0 (offsets b) with
      | .error fault => .error fault
      | .ok parts => .ok ⟨Header.read b, viewOf b, parts⟩ := by
  have magic : (Header.read b).magic = Tag.container :=
    (Tag.ofBytes_eq_iff (Nat.le_trans (by decide) h.length) _).mpr h.magic
  have version : (Header.read b).major = majorVersion := h.version
  have length : ¬ b.length < headerLength := Nat.not_lt.mpr h.length
  have size_ge : ¬ (Header.read b).size.toNat < headerLength := Nat.not_lt.mpr h.size_ge
  have size_le : ¬ b.length < (Header.read b).size.toNat := Nat.not_lt.mpr h.size_le
  have count := countFits_iff.mpr ⟨h.count_le, h.count_fits⟩
  simp only [parse, length, magic, version, size_ge, size_le, count, ne_eq, not_true_eq_false,
    if_false]
  rw [← offsetTable_eq h]
  rfl

theorem headerFits_of_parse {b : Bytes} {c : Container} (h : parse b = .ok c) : HeaderFits b := by
  -- each check that fails would have ended in an error
  simp only [parse] at h
  by_cases length : b.length < headerLength
  · rw [if_pos length] at h
    cases h
  rw [if_neg length] at h
  by_cases magic : (Header.read b).magic ≠ Tag.container
  · rw [if_pos magic] at h
    cases h
  rw [if_neg magic] at h
  by_cases version : (Header.read b).major ≠ majorVersion
  · rw [if_pos version] at h
    cases h
  rw [if_neg version] at h
  by_cases size_ge : (Header.read b).size.toNat < headerLength
  · rw [if_pos size_ge] at h
    cases h
  rw [if_neg size_ge] at h
  by_cases size_le : b.length < (Header.read b).size.toNat
  · rw [if_pos size_le] at h
    cases h
  rw [if_neg size_le] at h
  by_cases count : ¬ (Header.read b).countFits = true
  · rw [if_pos count] at h
    cases h
  exact headerFits_of_checks length magic version size_ge size_le count

/-- Parsing succeeds exactly if the header and every part fit, and the container it
answers with is the one the bytes hold. -/
theorem parse_eq_ok_iff {b : Bytes} {c : Container} :
    parse b = .ok c ↔ HeaderFits b ∧
      (∀ o ∈ offsets b, Part.Fits (viewOf b) (32 + 4 * declaredCount b) o) ∧ c = ofBytes b := by
  constructor
  · intro h
    have header := headerFits_of_parse h
    rw [parse_of_headerFits header] at h
    cases hr : Part.readAll (viewOf b).index (32 + 4 * declaredCount b) 0 (offsets b) with
    | error fault =>
        rw [hr] at h
        cases h
    | ok parts =>
        obtain ⟨fits, rfl⟩ := Part.readAll_eq_ok_iff.mp hr
        rw [hr] at h
        cases h
        exact ⟨header, fits, rfl⟩
  · rintro ⟨header, fits, rfl⟩
    rw [parse_of_headerFits header, Part.readAll_eq_ok_iff.mpr ⟨fits, rfl⟩]
    rfl

/-- A part fits into the bytes within the declared size exactly if the whole byte
string says so. -/
theorem fits_iff {b : Bytes} (h : HeaderFits b) (tableEnd : Nat) (o : UInt32) :
    Part.Fits (viewOf b) tableEnd o ↔
      tableEnd ≤ o.toNat ∧ o.toNat + 8 ≤ declaredSize b ∧
        o.toNat + 8 + (b.u32At (o.toNat + 4)).toNat ≤ declaredSize b := by
  unfold Part.Fits
  rw [h.length_view]
  by_cases header : o.toNat + 8 ≤ declaredSize b
  · rw [viewOf, Bytes.reads_u32.take (by omega)]
  · simp [header]

theorem parse_ok_iff_wellFormed (b : Bytes) : (∃ c, parse b = .ok c) ↔ WellFormed b := by
  constructor
  · rintro ⟨c, h⟩
    obtain ⟨header, fits, -⟩ := parse_eq_ok_iff.mp h
    refine ⟨header, ?_⟩
    intro i hi
    have member : offsetAt b i ∈ offsets b := List.mem_map_of_mem (List.mem_range.mpr hi)
    exact (fits_iff header _ _).mp (fits _ member)
  · intro h
    refine ⟨ofBytes b, parse_eq_ok_iff.mpr ⟨h.toHeaderFits, ?_, rfl⟩⟩
    intro o ho
    obtain ⟨i, hi, rfl⟩ := List.mem_map.mp ho
    exact (fits_iff h.toHeaderFits _ _).mpr (h.parts i (List.mem_range.mp hi))

end Container

/-! ## The same with checked readers only -/

/-- Reads a part of the offset table. -/
def Part.readStrictly (view table : Bytes) (tableEnd index : Nat) :
    Except (ReadError ⊕ ContainerFault) Part :=
  match table.readU32 (4 * index) with
  | .error cause => .error (.inl cause)
  | .ok offset =>
    if offset.toNat < tableEnd then .error (.inr (.partInTable index offset tableEnd))
    else
      match view.slice offset.toNat Container.partHeaderLength with
      | .error cause => .error (.inr (.partHeader index cause))
      | .ok head =>
        match head.slice 0 4 with
        | .error cause => .error (.inl cause)
        | .ok name =>
          match head.readU32 4 with
          | .error cause => .error (.inl cause)
          | .ok size =>
            match view.slice (offset.toNat + Container.partHeaderLength) size.toNat with
            | .error cause => .error (.inr (.partPayload index (Tag.ofBytes name) cause))
            | .ok _ => .ok ⟨Tag.ofBytes name, offset, size⟩

/-- Reads so many parts of the offset table, from an index on. -/
def Part.readAllStrictly (view table : Bytes) (tableEnd : Nat) :
    (count index : Nat) → Except (ReadError ⊕ ContainerFault) (List Part)
  | 0, _ => .ok []
  | count + 1, index =>
    match Part.readStrictly view table tableEnd index with
    | .error e => .error e
    | .ok part =>
      match Part.readAllStrictly view table tableEnd count (index + 1) with
      | .error e => .error e
      | .ok parts => .ok (part :: parts)

namespace Container

/-- Reads the header field by field. -/
def Header.readStrictly (b : Bytes) : Except ReadError Header := do
  let magic ← b.slice 0 4
  let digest ← b.slice 4 16
  let major ← b.readU16 20
  let minor ← b.readU16 22
  let size ← b.readU32 24
  let partCount ← b.readU32 28
  return { magic := Tag.ofBytes magic, digest, major, minor, size, partCount }

/-- Reads a container with checked readers. -/
def parseStrictly (b : Bytes) : Except (ReadError ⊕ ContainerFault) Container :=
  if b.length < headerLength then .error (.inr (.tooShort b.length))
  else
    match Header.readStrictly b with
    | .error cause => .error (.inl cause)
    | .ok header =>
      if header.magic ≠ Tag.container then .error (.inr (.badMagic header.magic))
      else if header.major ≠ majorVersion then
        .error (.inr (.unsupportedVersion header.major header.minor))
      else if header.size.toNat < headerLength then .error (.inr (.sizeBelowHeader header.size))
      else if b.length < header.size.toNat then
        .error (.inr (.sizeBeyondInput header.size b.length))
      else
        match b.slice 0 header.size.toNat with
        | .error cause => .error (.inl cause)
        | .ok view =>
          if ¬ header.countFits then .error (.inr (.tooManyParts header.partCount header.size))
          else
            match view.slice headerLength (4 * header.partCount.toNat) with
            | .error cause => .error (.inl cause)
            | .ok table =>
              match Part.readAllStrictly view table header.tableEnd header.partCount.toNat 0 with
              | .error e => .error e
              | .ok parts => .ok ⟨header, view, parts⟩

end Container

/-- An index into the table finds its entry, and a part's header holds its fields. -/
theorem Part.readStrictly_eq {view table : Bytes} {n index : Nat} (ht : table.length = 4 * n)
    (small : 4 * n < addressLimit) (h : index < n) (tableEnd : Nat) :
    Part.readStrictly view table tableEnd index =
      (Part.read view.index tableEnd index (table.u32At (4 * index))).mapError .inr := by
  rw [Part.readStrictly, Bytes.reads_u32.eq_ok (by omega) (by omega), Part.read]
  by_cases behind : (table.u32At (4 * index)).toNat < tableEnd
  · simp only [behind, if_true]
    rfl
  simp only [behind, if_false, Indexed.slice_index, Indexed.length_index]
  cases hs : view.slice (table.u32At (4 * index)).toNat Container.partHeaderLength with
  | error cause => rfl
  | ok head =>
      have eight : head.length = 8 := Bytes.length_of_slice_eq_ok hs
      have name : head.slice 0 4 = .ok (head.window 0 4) :=
        Bytes.slice_eq_ok (by omega) (by decide)
      have tag : Tag.ofBytes (head.window 0 4) = Tag.ofBytes head :=
        Tag.ofBytes_take head (by decide)
      simp only [name, tag, Bytes.reads_u32.eq_ok (show 4 + 4 ≤ head.length by omega)
        (show 4 + 4 < addressLimit by decide)]
      rw [Bytes.slice_eq_map]
      cases checkRange ((table.u32At (4 * index)).toNat + Container.partHeaderLength)
        (head.u32At 4).toNat view.length with
      | error cause => rfl
      | ok _ => rfl

theorem Part.readAllStrictly_eq {view table : Bytes} {n : Nat} (ht : table.length = 4 * n)
    (small : 4 * n < addressLimit) (tableEnd : Nat) {count index : Nat} (h : index + count ≤ n) :
    Part.readAllStrictly view table tableEnd count index =
      (Part.readAll view.index tableEnd index
        ((List.range' index count).map fun i => table.u32At (4 * i))).mapError .inr := by
  induction count generalizing index with
  | zero => rfl
  | succ count ih =>
      rw [Part.readAllStrictly, Part.readStrictly_eq ht small (by omega), ih (by omega),
        List.range'_succ, List.map_cons, Part.readAll]
      cases Part.read view.index tableEnd index (table.u32At (4 * index)) with
      | error fault => rfl
      | ok part =>
          cases Part.readAll view.index tableEnd (index + 1)
            ((List.range' (index + 1) count).map fun i => table.u32At (4 * i)) with
          | error fault => rfl
          | ok parts => rfl

namespace Container

theorem Header.readStrictly_eq {b : Bytes} (h : 32 ≤ b.length) :
    Header.readStrictly b = .ok (Header.read b) := by
  have inside : ∀ offset width, offset + width ≤ 32 →
      offset + width ≤ b.length ∧ offset + width < addressLimit := by
    intro offset width hw
    simp only [addressLimit]
    omega
  have magic : Tag.ofBytes (b.window 0 4) = Tag.ofBytes b := Tag.ofBytes_take b (by decide)
  unfold Header.readStrictly
  rw [Bytes.slice_eq_ok (inside 0 4 (by decide)).1 (by decide),
    Bytes.slice_eq_ok (inside 4 16 (by decide)).1 (by decide),
    Bytes.reads_u16.eq_ok (inside 20 2 (by decide)).1 (by decide),
    Bytes.reads_u16.eq_ok (inside 22 2 (by decide)).1 (by decide),
    Bytes.reads_u32.eq_ok (inside 24 4 (by decide)).1 (by decide),
    Bytes.reads_u32.eq_ok (inside 28 4 (by decide)).1 (by decide)]
  simp only [bind, Except.bind, pure, Except.pure, magic]
  rfl

theorem slice_view {b : Bytes} (h : declaredSize b ≤ b.length) :
    b.slice 0 (declaredSize b) = .ok (viewOf b) := by
  have small : 0 + declaredSize b < addressLimit := by
    have := (b.u32At 24).toNat_lt
    simp only [declaredSize, addressLimit]
    omega
  rw [Bytes.slice_eq_ok (by omega) small]
  rfl

theorem slice_table {b : Bytes} (h : HeaderFits b) :
    (viewOf b).slice headerLength (4 * declaredCount b) =
      .ok ((viewOf b).window headerLength (4 * declaredCount b)) := by
  refine Bytes.slice_eq_ok ?_ ?_
  · rw [h.length_view]
    exact h.tableEnd_le
  · have := h.count_le
    simp only [headerLength, addressLimit]
    omega

theorem readAllStrictly_table {b : Bytes} (h : HeaderFits b) :
    Part.readAllStrictly (viewOf b) ((viewOf b).window headerLength (4 * declaredCount b))
        (Header.read b).tableEnd (declaredCount b) 0 =
      (Part.readAll (viewOf b).index (Header.read b).tableEnd 0
        (offsetTable (viewOf b) (Header.read b))).mapError .inr := by
  have words : ((viewOf b).window headerLength (4 * declaredCount b)).length =
      4 * declaredCount b := Bytes.length_window (by rw [h.length_view]; exact h.tableEnd_le)
  have small : 4 * declaredCount b < addressLimit := by
    have := h.count_le
    simp only [addressLimit]
    omega
  rw [Part.readAllStrictly_eq words small _ (Nat.le_of_eq (Nat.zero_add _)),
    ← List.range_eq_range', ← Bytes.words32_eq words]
  rfl

/-- No read leaves its bytes: the checked readers give the same answer, and none of
their errors. -/
theorem parseStrictly_eq (b : Bytes) : parseStrictly b = (parse b).mapError .inr := by
  unfold parseStrictly
  by_cases length : b.length < headerLength
  · rw [if_pos length, parse, if_pos length]
    rfl
  rw [if_neg length, Header.readStrictly_eq (Nat.not_lt.mp length), parse, if_neg length]
  dsimp only
  by_cases magic : (Header.read b).magic ≠ Tag.container
  · rw [if_pos magic, if_pos magic]
    rfl
  rw [if_neg magic, if_neg magic]
  by_cases version : (Header.read b).major ≠ majorVersion
  · rw [if_pos version, if_pos version]
    rfl
  rw [if_neg version, if_neg version]
  by_cases size_ge : (Header.read b).size.toNat < headerLength
  · rw [if_pos size_ge, if_pos size_ge]
    rfl
  rw [if_neg size_ge, if_neg size_ge]
  by_cases size_le : b.length < (Header.read b).size.toNat
  · rw [if_pos size_le, if_pos size_le]
    rfl
  rw [if_neg size_le, if_neg size_le]
  have view : b.slice 0 (Header.read b).size.toNat = .ok (viewOf b) :=
    slice_view (Nat.not_lt.mp size_le)
  rw [view]
  dsimp only
  by_cases count : ¬ (Header.read b).countFits = true
  · rw [if_pos count, if_pos count]
    rfl
  rw [if_neg count, if_neg count]
  have header := headerFits_of_checks length magic version size_ge size_le count
  have table : (viewOf b).slice headerLength (4 * (Header.read b).partCount.toNat) =
      .ok ((viewOf b).window headerLength (4 * declaredCount b)) := slice_table header
  have parts : Part.readAllStrictly (viewOf b)
      ((viewOf b).window headerLength (4 * declaredCount b)) (Header.read b).tableEnd
      (Header.read b).partCount.toNat 0 = _ := readAllStrictly_table header
  rw [table]
  dsimp only
  rw [parts]
  have same : b.take (Header.read b).size.toNat = viewOf b := rfl
  rw [same]
  cases Part.readAll (viewOf b).index (Header.read b).tableEnd 0
    (offsetTable (viewOf b) (Header.read b)) with
  | error fault => rfl
  | ok found => rfl

/-! ## What parsing accepts -/

/-- Parsing accepts exactly the format.  Without the magic nothing is looked for, with
it the answer is that of parsing; and no read on the way leaves its bytes. -/
theorem parse_accepts_wellFormed (b : Bytes) :
    ((∃ c, parse b = .ok c) ↔ WellFormed b) ∧
    (parse? b = .ok none ↔ b.take 4 ≠ Tag.container.toBytes) ∧
    (parse? b = if b.take 4 = Tag.container.toBytes then (parse b).map some else .ok none) ∧
    parseStrictly b = (parse b).mapError .inr := by
  have validate :
      parse? b = if b.take 4 = Tag.container.toBytes then (parse b).map some else .ok none := by
    simp only [parse?, hasMagic, beq_iff_eq]
  refine ⟨parse_ok_iff_wellFormed b, ?_, validate, parseStrictly_eq b⟩
  rw [validate]
  by_cases magic : b.take 4 = Tag.container.toBytes
  · rw [if_pos magic]
    cases parse b with
    | error fault => simp [Except.map, magic]
    | ok c => simp [Except.map, magic]
  · simp [magic]

end Container

end ShaderReport
