/-
# Looking parts up in the bytes

A parsed container keeps the parts that were checked.  Instead of keeping them one can
keep the offset table alone and read a part again whenever it is asked for, with every
range checked once more (`lookUp?`).  Listing, searching and summing up are then made of
such lookups, and each of them leaves out the parts whose lookup fails.

`PartAt b index p payload` states on the bytes what a table index has to answer with.
After parsing, a lookup answers exactly with that (`lookUp?_eq_some_iff`): the ranges it
checks are those that parsing checked.  So none fails inside the table, no list is
shorter than the table, and the first part of a name is the one with the smallest index.
`Reliable` collects this, and `reliable_of_parse` proves it of every container.
-/
import ShaderReport.Proofs.Container.Contents

namespace ShaderReport.Container

/-! ## Lookups -/

/-- The bytes of the offset table. -/
def table (c : Container) : Bytes := c.view.window headerLength (4 * c.header.partCount.toNat)

/-- The part at a table index with its payload, read from the bytes.  The index may be any
number; its place in the table has to be a 64-bit offset. -/
def lookUp? (c : Container) (index : Nat) : Option (Part × Bytes) :=
  if addressLimit ≤ 4 * index then none
  else
    match c.table.readU32 (4 * index) with
    | .error _ => none
    | .ok offset =>
      match c.view.slice offset.toNat partHeaderLength with
      | .error _ => none
      | .ok head =>
        if addressLimit ≤ offset.toNat + partHeaderLength then none
        else
          match c.view.slice (offset.toNat + partHeaderLength) (head.u32At 4).toNat with
          | .error _ => none
          | .ok payload => some (⟨Tag.ofBytes head, offset, head.u32At 4⟩, payload)

/-- All parts whose lookup succeeds, in table order. -/
def lookUpAll (c : Container) : List (Part × Bytes) :=
  (List.range c.header.partCount.toNat).filterMap c.lookUp?

/-- The first part of a name whose lookup succeeds. -/
def lookUpFirst? (c : Container) (tag : Tag) : Option (Part × Bytes) :=
  c.lookUpAll.find? (·.1.tag == tag)

def lookUpPreferring? (c : Container) (primary fallback : Tag) : Option (Part × Bytes) :=
  (c.lookUpFirst? primary).or (c.lookUpFirst? fallback)

/-- One line for the container and one for each lookup that succeeds. -/
def summaryOfLookUps (c : Container) : String :=
  let h := c.header
  s!"{h.magic.text} v{h.major}.{h.minor} container_size={h.size} part_count={h.partCount}" ++
    String.join (c.lookUpAll.zipIdx.map fun found =>
      s!"\n  [{Text.zeroPadded 2 found.2}] {found.1.1.tag.text} {found.1.2.length} bytes")

/-! ## What stands at a table index -/

/-- The part at a table index of a byte string, with its payload. -/
structure PartAt (b : Bytes) (index : Nat) (p : Part) (data : Bytes) : Prop where
  inTable : index < declaredCount b
  offset : p.offset = offsetAt b index
  tag : p.tag = Tag.ofBytes (b.window p.offset.toNat 4)
  size : p.size = b.u32At (p.offset.toNat + 4)
  payload : data = b.window (p.offset.toNat + 8) p.size.toNat
  behindTable : 32 + 4 * declaredCount b ≤ p.offset.toNat
  inside : p.offset.toNat + 8 + p.size.toNat ≤ declaredSize b
  /-- The payload is there in full. -/
  length : data.length = p.size.toNat

/-- The bytes decide what stands at an index. -/
theorem PartAt.unique {b : Bytes} {index : Nat} {p q : Part} {x y : Bytes}
    (hp : PartAt b index p x) (hq : PartAt b index q y) : (p, x) = (q, y) := by
  obtain ⟨tag, offset, size⟩ := p
  obtain ⟨tag', offset', size'⟩ := q
  obtain rfl : offset = offset' := hp.offset.trans hq.offset.symm
  obtain rfl : tag = tag' := hp.tag.trans hq.tag.symm
  obtain rfl : size = size' := hp.size.trans hq.size.symm
  obtain rfl : x = y := hp.payload.trans hq.payload.symm
  rfl

section WellFormed

variable {b : Bytes} (formed : WellFormed b) {index : Nat}
include formed

theorem length_table : (ofBytes b).table.length = 4 * declaredCount b := by
  refine Bytes.length_window ?_
  show 32 + 4 * declaredCount b ≤ (viewOf b).length
  rw [formed.length_view]
  exact formed.tableEnd_le

theorem readU32_table (inTable : index < declaredCount b) :
    (ofBytes b).table.readU32 (4 * index) = .ok (offsetAt b index) := by
  have few := formed.count_le
  have end_le := formed.tableEnd_le
  have inside : 4 * index + 4 ≤ (ofBytes b).table.length := by
    rw [length_table formed]
    omega
  have small : 4 * index + 4 < addressLimit := by
    simp only [addressLimit]
    omega
  have word : (ofBytes b).table.u32At (4 * index) = offsetAt b index := by
    show ((viewOf b).window 32 (4 * declaredCount b)).u32At (4 * index) = _
    rw [Bytes.reads_u32.inWindow _ _ (by omega), viewOf, Bytes.reads_u32.take (by omega), offsetAt]
  rw [Bytes.reads_u32.eq_ok inside small, word]

/-- What parsing stores for a table index is what stands there. -/
theorem partAt_standingAt (inTable : index < declaredCount b) :
    PartAt b index (Part.standingAt (viewOf b) (offsetAt b index))
      ((ofBytes b).payload (Part.standingAt (viewOf b) (offsetAt b index))) := by
  obtain ⟨behind, header, payload⟩ := formed.parts index inTable
  have size : (viewOf b).u32At ((offsetAt b index).toNat + 4) =
      b.u32At ((offsetAt b index).toNat + 4) := Bytes.reads_u32.take (by omega)
  have tag : Tag.ofBytes ((viewOf b).window (offsetAt b index).toNat 8) =
      Tag.ofBytes (b.window (offsetAt b index).toNat 4) := by
    rw [viewOf, Bytes.window_take header, Bytes.window, Bytes.window,
      Tag.ofBytes_take _ (by decide), Tag.ofBytes_take _ (by decide)]
  have inside : (offsetAt b index).toNat + 8 +
      ((viewOf b).u32At ((offsetAt b index).toNat + 4)).toNat ≤ declaredSize b := by
    rw [size]
    exact payload
  have whole : (ofBytes b).payload (Part.standingAt (viewOf b) (offsetAt b index)) =
      b.window ((offsetAt b index).toNat + 8)
        ((viewOf b).u32At ((offsetAt b index).toNat + 4)).toNat := Bytes.window_take inside
  constructor
  case inTable => exact inTable
  case offset => rfl
  case tag => exact tag
  case size => exact size
  case payload => exact whole
  case behindTable => exact behind
  case inside => exact inside
  case length =>
      rw [whole]
      exact Bytes.length_window (Nat.le_trans inside formed.size_le)

/-! ## Lookups after parsing -/

/-- Inside the table every range that a lookup checks was checked before. -/
theorem lookUp?_of_lt (inTable : index < declaredCount b) :
    (ofBytes b).lookUp? index = some (Part.standingAt (viewOf b) (offsetAt b index),
      (ofBytes b).payload (Part.standingAt (viewOf b) (offsetAt b index))) := by
  obtain ⟨behind, header, payload⟩ :=
    (fits_iff formed.toHeaderFits _ _).mpr (formed.parts index inTable)
  have few := formed.count_le
  have small := Part.range_lt_addressLimit (offsetAt b index)
    ((viewOf b).u32At ((offsetAt b index).toNat + 4))
  have position : ¬ addressLimit ≤ 4 * index := by
    simp only [addressLimit]
    omega
  have headEnd : (offsetAt b index).toNat + partHeaderLength < addressLimit := by
    simp only [partHeaderLength]
    omega
  have head : (ofBytes b).view.slice (offsetAt b index).toNat partHeaderLength =
      .ok ((viewOf b).window (offsetAt b index).toNat 8) := Bytes.slice_eq_ok header headEnd
  have size : ((viewOf b).window (offsetAt b index).toNat 8).u32At 4 =
      (viewOf b).u32At ((offsetAt b index).toNat + 4) := Bytes.reads_u32.inWindow _ _ (by decide)
  have rest : (ofBytes b).view.slice ((offsetAt b index).toNat + partHeaderLength)
        ((viewOf b).u32At ((offsetAt b index).toNat + 4)).toNat =
      .ok ((ofBytes b).payload (Part.standingAt (viewOf b) (offsetAt b index))) :=
    Bytes.slice_eq_ok payload small
  rw [lookUp?, if_neg position, readU32_table formed inTable]
  simp only [head, if_neg (Nat.not_le.mpr headEnd), size, rest]
  rfl

/-- Past the table there is no offset to begin with. -/
theorem lookUp?_of_le (past : declaredCount b ≤ index) : (ofBytes b).lookUp? index = none := by
  obtain ⟨cause, h⟩ : ∃ cause, (ofBytes b).table.slice (4 * index) 4 = .error cause := by
    refine Bytes.slice_eq_error ?_
    rw [length_table formed]
    omega
  have missing : (ofBytes b).table.readU32 (4 * index) = .error cause := by
    rw [Bytes.readU32, h]
    rfl
  rw [lookUp?, missing]
  exact ite_self none

theorem lookUp?_eq_some_iff {p : Part} {payload : Bytes} :
    (ofBytes b).lookUp? index = some (p, payload) ↔ PartAt b index p payload := by
  constructor
  · intro h
    rcases Nat.lt_or_ge index (declaredCount b) with inTable | past
    · rw [lookUp?_of_lt formed inTable] at h
      cases h
      exact partAt_standingAt formed inTable
    · rw [lookUp?_of_le formed past] at h
      cases h
  · intro h
    rw [lookUp?_of_lt formed h.inTable, (partAt_standingAt formed h.inTable).unique h]

theorem isSome_lookUp?_iff : ((ofBytes b).lookUp? index).isSome ↔ index < declaredCount b := by
  rcases Nat.lt_or_ge index (declaredCount b) with inTable | past
  · rw [lookUp?_of_lt formed inTable]
    exact iff_of_true rfl inTable
  · rw [lookUp?_of_le formed past]
    exact iff_of_false Bool.false_ne_true (Nat.not_lt.mpr past)

/-! ## Lists of lookups -/

omit formed in
theorem part?_ofBytes (b : Bytes) (index : Nat) : (ofBytes b).part? index =
    if index < declaredCount b then some (Part.standingAt (viewOf b) (offsetAt b index))
    else none := by
  rw [part?, ofBytes, offsets, List.map_map, List.getElem?_map]
  by_cases inTable : index < declaredCount b
  · rw [if_pos inTable, List.getElem?_range inTable]
    rfl
  · rw [if_neg inTable, List.getElem?_eq_none (by rw [List.length_range]; omega)]
    rfl

/-- A lookup finds what parsing stored. -/
theorem lookUp?_eq (index : Nat) :
    (ofBytes b).lookUp? index =
      ((ofBytes b).part? index).map fun p => (p, (ofBytes b).payload p) := by
  rw [part?_ofBytes]
  rcases Nat.lt_or_ge index (declaredCount b) with inTable | past
  · rw [lookUp?_of_lt formed inTable, if_pos inTable]
    rfl
  · rw [lookUp?_of_le formed past, if_neg (Nat.not_lt.mpr past)]
    rfl

/-- No part is left out of the list. -/
theorem lookUpAll_eq : (ofBytes b).lookUpAll = (ofBytes b).contents := by
  have found : ∀ index ∈ List.range (declaredCount b), (ofBytes b).lookUp? index =
      some (Part.standingAt (viewOf b) (offsetAt b index),
        (ofBytes b).payload (Part.standingAt (viewOf b) (offsetAt b index))) := by
    intro index h
    exact lookUp?_of_lt formed (List.mem_range.mp h)
  have listed : (ofBytes b).lookUpAll =
      (List.range (declaredCount b)).filterMap (ofBytes b).lookUp? := rfl
  rw [listed, List.filterMap_congr found, List.filterMap_eq_map', contents_eq]
  simp only [ofBytes, offsets, List.map_map]
  rfl

theorem getElem?_lookUpAll (index : Nat) :
    (ofBytes b).lookUpAll[index]? = (ofBytes b).lookUp? index := by
  rw [lookUpAll_eq formed, contents_eq, List.getElem?_map, lookUp?_eq formed]
  rfl

theorem length_lookUpAll : (ofBytes b).lookUpAll.length = declaredCount b := by
  rw [lookUpAll_eq formed, contents_eq, List.length_map]
  show ((offsets b).map (Part.standingAt (viewOf b))).length = declaredCount b
  rw [List.length_map, offsets, List.length_map, List.length_range]

theorem lookUpFirst?_eq (tag : Tag) :
    (ofBytes b).lookUpFirst? tag =
      ((ofBytes b).find? tag).map fun p => (p, (ofBytes b).payload p) := by
  rw [lookUpFirst?, lookUpAll_eq formed, contents_eq, List.find?_map]
  rfl

/-- A stored part says how long its payload is. -/
theorem length_payload {p : Part} (h : p ∈ (ofBytes b).parts) :
    ((ofBytes b).payload p).length = p.size.toNat := by
  obtain ⟨offset, listed, rfl⟩ := List.mem_map.mp h
  obtain ⟨index, inTable, rfl⟩ := List.mem_map.mp listed
  exact (partAt_standingAt formed (List.mem_range.mp inTable)).length

theorem summaryOfLookUps_eq : (ofBytes b).summaryOfLookUps = (ofBytes b).summary := by
  have lines : (ofBytes b).lookUpAll.zipIdx.map (fun found =>
        s!"\n  [{Text.zeroPadded 2 found.2}] {found.1.1.tag.text} {found.1.2.length} bytes") =
      (ofBytes b).parts.zipIdx.map fun stored =>
        s!"\n  [{Text.zeroPadded 2 stored.2}] {stored.1.tag.text} {stored.1.size} bytes" := by
    rw [lookUpAll_eq formed, contents_eq, List.zipIdx_map, List.map_map]
    refine List.map_congr_left ?_
    intro stored h
    have length := length_payload formed (List.fst_mem_of_mem_zipIdx h)
    simp only [Function.comp_apply, Prod.map, length]
    rfl
  simp only [summaryOfLookUps, lines]
  rfl

/-! ## Searching -/

/-- The part of a name with the smallest table index. -/
def FirstAt (b : Bytes) (tag : Tag) (p : Part) (data : Bytes) : Prop :=
  ∃ index, PartAt b index p data ∧ p.tag = tag ∧
    ∀ earlier < index, ∀ q other, PartAt b earlier q other → q.tag ≠ tag

/-- No part has the name. -/
def Unnamed (b : Bytes) (tag : Tag) : Prop := ∀ index p data, PartAt b index p data → p.tag ≠ tag

theorem getElem?_lookUpAll_iff {p : Part} {data : Bytes} :
    (ofBytes b).lookUpAll[index]? = some (p, data) ↔ PartAt b index p data := by
  rw [getElem?_lookUpAll formed, lookUp?_eq_some_iff formed]

theorem lookUpFirst?_eq_some_iff {tag : Tag} {p : Part} {data : Bytes} :
    (ofBytes b).lookUpFirst? tag = some (p, data) ↔ FirstAt b tag p data := by
  rw [lookUpFirst?, List.find?_eq_some_iff_getElem]
  constructor
  · rintro ⟨named, index, inList, here, others⟩
    have found := (getElem?_lookUpAll_iff formed).mp (List.getElem?_eq_some_iff.mpr ⟨inList, here⟩)
    refine ⟨index, found, beq_iff_eq.mp named, ?_⟩
    intro earlier before q other there same
    obtain ⟨_, e⟩ := List.getElem?_eq_some_iff.mp ((getElem?_lookUpAll_iff formed).mpr there)
    have refused := others earlier before
    rw [e, beq_iff_eq.mpr same] at refused
    cases refused
  · rintro ⟨index, here, named, others⟩
    obtain ⟨inList, e⟩ := List.getElem?_eq_some_iff.mp ((getElem?_lookUpAll_iff formed).mpr here)
    refine ⟨beq_iff_eq.mpr named, index, inList, e, ?_⟩
    intro earlier before
    have there := (getElem?_lookUpAll_iff formed).mp
      (List.getElem?_eq_getElem (Nat.lt_trans before inList))
    exact (Bool.not_eq_true' _).mpr (beq_eq_false_iff_ne.mpr (others earlier before _ _ there))

theorem lookUpFirst?_eq_none_iff {tag : Tag} :
    (ofBytes b).lookUpFirst? tag = none ↔ Unnamed b tag := by
  rw [lookUpFirst?, List.find?_eq_none]
  constructor
  · intro h index p data there same
    have listed := List.mem_of_getElem? ((getElem?_lookUpAll_iff formed).mpr there)
    exact h _ listed (beq_iff_eq.mpr same)
  · rintro h ⟨p, data⟩ listed same
    obtain ⟨index, there⟩ := List.mem_iff_getElem?.mp listed
    exact h index p data ((getElem?_lookUpAll_iff formed).mp there) (beq_iff_eq.mp same)

end WellFormed

/-! ## Every container -/

/-- Lookups in the bytes of a container: what each answers with, and that it is what was
stored. -/
structure Reliable (b : Bytes) (c : Container) : Prop where
  /-- There is a part for the indices of the table and for no other number. -/
  present : ∀ index, (c.lookUp? index).isSome ↔ index < declaredCount b
  part : ∀ index p data, c.lookUp? index = some (p, data) ↔ PartAt b index p data
  stored : ∀ index, c.lookUp? index = (c.part? index).map fun p => (p, c.payload p)
  /-- The list is as long as the table, and in its order. -/
  count : c.lookUpAll.length = declaredCount b
  position : ∀ index, c.lookUpAll[index]? = c.lookUp? index
  listed : c.lookUpAll = c.contents
  summary : c.summaryOfLookUps = c.summary
  first : ∀ tag p data, c.lookUpFirst? tag = some (p, data) ↔ FirstAt b tag p data
  absent : ∀ tag, c.lookUpFirst? tag = none ↔ Unnamed b tag
  found : ∀ tag, c.lookUpFirst? tag = (c.find? tag).map fun p => (p, c.payload p)
  primary : ∀ p f, ¬ Unnamed b p → c.lookUpPreferring? p f = c.lookUpFirst? p
  fallback : ∀ p f, Unnamed b p → c.lookUpPreferring? p f = c.lookUpFirst? f
  preferred : ∀ p f,
    c.lookUpPreferring? p f = (c.findPreferring? p f).map fun q => (q, c.payload q)

/-- After parsing no lookup fails inside the table, and none answers outside of it. -/
theorem reliable_of_parse {b : Bytes} {c : Container} (h : parse b = .ok c) : Reliable b c := by
  obtain ⟨formed, rfl⟩ := parse_eq_ok_iff_wellFormed.mp h
  constructor
  case present => exact fun _ => isSome_lookUp?_iff formed
  case part => exact fun _ _ _ => lookUp?_eq_some_iff formed
  case stored => exact lookUp?_eq formed
  case count => exact length_lookUpAll formed
  case position => exact getElem?_lookUpAll formed
  case listed => exact lookUpAll_eq formed
  case summary => exact summaryOfLookUps_eq formed
  case first => exact fun _ _ _ => lookUpFirst?_eq_some_iff formed
  case absent => exact fun _ => lookUpFirst?_eq_none_iff formed
  case found => exact lookUpFirst?_eq formed
  case primary =>
      intro p f named
      obtain ⟨x, found⟩ := Option.ne_none_iff_exists'.mp
        (fun none => named ((lookUpFirst?_eq_none_iff formed).mp none))
      rw [lookUpPreferring?, found, Option.some_or]
  case fallback =>
      intro p f unnamed
      rw [lookUpPreferring?, (lookUpFirst?_eq_none_iff formed).mpr unnamed, Option.none_or]
  case preferred =>
      intro p f
      rw [lookUpPreferring?, lookUpFirst?_eq formed, lookUpFirst?_eq formed, ← Option.map_or]
      rfl

/-- Two parts, the second of which stands in the payload of the first. -/
def overlapping : Bytes :=
  Tag.container.toBytes ++ List.replicate 16 0 ++ [1, 0, 0, 0] ++ [56, 0, 0, 0] ++ [2, 0, 0, 0] ++
    [40, 0, 0, 0] ++ [48, 0, 0, 0] ++ [65, 65, 65, 65, 8, 0, 0, 0] ++ [66, 66, 66, 66, 0, 0, 0, 0]

theorem reliable_of_parse_overlapping :
    ∃ c, parse overlapping = .ok c ∧ c.lookUpAll.length = 2 ∧
      c.lookUp? 0 = some (⟨⟨65, 65, 65, 65⟩, 40, 8⟩, [66, 66, 66, 66, 0, 0, 0, 0]) ∧
      c.lookUp? 1 = some (⟨⟨66, 66, 66, 66⟩, 48, 0⟩, []) ∧
      ¬ (c.lookUp? 4611686018427387904).isSome ∧
      c.lookUpPreferring? ⟨67, 67, 67, 67⟩ ⟨66, 66, 66, 66⟩ = c.lookUp? 1 := by
  have parsed : parse overlapping = .ok (ofBytes overlapping) := by rfl
  have h := reliable_of_parse parsed
  refine ⟨_, parsed, h.count, ?_, ?_, ?_, ?_⟩
  · rw [h.stored]
    rfl
  · rw [h.stored]
    rfl
  · rw [h.present]
    decide
  · rw [h.preferred, h.stored]
    rfl

end ShaderReport.Container
