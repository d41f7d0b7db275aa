/-
# Building and parsing a container

Parsing what `Container.build` wrote gives the parts back: tags, payloads and
order, whatever the tags are and however often they repeat
(`parse_build`).

The argument is about one part in the middle of a byte string
(`standing_middle`): its header and its payload are found where it was written,
whatever stands before and behind it.  The induction over the parts then moves
one part after the other from behind to before (`standing_parts`), so the front
grows and the offsets grow with it.

`build` computes every offset before it writes one.  A writer that appends the parts
and fills in the table and the size as it goes writes the same bytes
(`buildInPlace_eq`).
-/
import Mathlib.Algebra.GroupWithZero.Nat
import ShaderReport.Container.Build
import ShaderReport.Proofs.Container.Format

namespace ShaderReport.Container

/-! ## Lengths -/

theorem length_partBytes (part : Tag × Bytes) :
    (partBytes part).length = partHeaderLength + part.2.length := by
  have four : part.1.toBytes.length = 4 := rfl
  rw [partBytes, List.length_append, List.length_append, four, Bytes.length_ofNatLE]
  rfl

theorem length_partOffsets (start : Nat) (parts : List (Tag × Bytes)) :
    (partOffsets start parts).length = parts.length := by
  induction parts generalizing start with
  | nil => rfl
  | cons part rest ih => simp [partOffsets, ih]

theorem bodyLength_eq_sum (parts : List (Tag × Bytes)) :
    bodyLength parts = (parts.map fun part => 12 + part.2.length).sum := by
  induction parts with
  | nil => rfl
  | cons part rest ih => simp [bodyLength, partHeaderLength, ih]

theorem twelve_le_bodyLength (parts : List (Tag × Bytes)) :
    12 * parts.length ≤ bodyLength parts := by
  induction parts with
  | nil => exact Nat.le_refl _
  | cons part rest ih =>
      simp only [List.length_cons, bodyLength, partHeaderLength]
      omega

/-- The table takes four bytes of every part, the parts themselves the others. -/
theorem length_flatMap_partBytes (parts : List (Tag × Bytes)) :
    4 * parts.length + (parts.flatMap partBytes).length = bodyLength parts := by
  induction parts with
  | nil => rfl
  | cons part rest ih =>
      simp only [List.length_cons, List.flatMap_cons, List.length_append, bodyLength,
        length_partBytes]
      omega

/-! ## One part in the middle of a byte string -/

/-- What is read back at an offset: the tag and the payload. -/
def readBack (view : Bytes) (offset : Nat) : Tag × Bytes :=
  (Tag.ofBytes (view.window offset 8),
    view.window (offset + 8) (view.u32At (offset + 4)).toNat)

/-- A part is found where it was written. -/
theorem standing_middle (front rest : Bytes) {part : Tag × Bytes}
    (small : part.2.length < 4294967296) :
    (Bytes.u32At (front ++ (partBytes part ++ rest)) (front.length + 4)).toNat = part.2.length ∧
      readBack (front ++ (partBytes part ++ rest)) front.length = part := by
  have four : part.1.toBytes.length = 4 := rfl
  -- the string, cut in front of the length and in front of the payload
  have atLength : front ++ (partBytes part ++ rest) =
      (front ++ part.1.toBytes) ++ (Bytes.ofNatLE 4 part.2.length ++ (part.2 ++ rest)) := by
    simp [partBytes]
  have atPayload : front ++ (partBytes part ++ rest) =
      (front ++ part.1.toBytes ++ Bytes.ofNatLE 4 part.2.length) ++ (part.2 ++ rest) := by
    simp [partBytes]
  have size : (Bytes.u32At (front ++ (partBytes part ++ rest)) (front.length + 4)).toNat =
      part.2.length := by
    have found := Bytes.u32At_middle (front ++ part.1.toBytes) (part.2 ++ rest) small
    rw [← atLength, List.length_append, four] at found
    exact found
  refine ⟨size, ?_⟩
  have payload : Bytes.window (front ++ (partBytes part ++ rest)) (front.length + 8)
      part.2.length = part.2 := by
    have found := Bytes.window_middle (front ++ part.1.toBytes ++ Bytes.ofNatLE 4 part.2.length)
      part.2 rest
    rw [← atPayload, List.length_append, List.length_append, four, Bytes.length_ofNatLE] at found
    exact found
  have tag : Tag.ofBytes (Bytes.window (front ++ (partBytes part ++ rest)) front.length 8) =
      part.1 := by
    have found := Bytes.window_append_right front (partBytes part ++ rest) 0 8
    rw [Nat.add_zero] at found
    rw [found, Bytes.window, List.drop_zero, Tag.ofBytes_take _ (by decide), partBytes,
      List.append_assoc, List.append_assoc]
    exact Tag.ofBytes_append part.1 _
  rw [readBack, size, payload, tag]

/-- Parts laid end to end behind a front are all found, at the offsets that were
computed for them, and none of them reaches past the end. -/
theorem standing_parts (front : Bytes) (parts : List (Tag × Bytes))
    (small : (front ++ parts.flatMap partBytes).length < 4294967296) :
    (partOffsets front.length parts).map (readBack (front ++ parts.flatMap partBytes)) = parts ∧
      ∀ o ∈ partOffsets front.length parts, front.length ≤ o ∧
        o + 8 + (Bytes.u32At (front ++ parts.flatMap partBytes) (o + 4)).toNat ≤
          (front ++ parts.flatMap partBytes).length := by
  induction parts generalizing front with
  | nil => exact ⟨rfl, List.forall_mem_nil _⟩
  | cons part rest ih =>
      -- the first part joins the front
      have shift : front ++ (part :: rest).flatMap partBytes =
          (front ++ partBytes part) ++ rest.flatMap partBytes := by
        rw [List.flatMap_cons, List.append_assoc]
      have grown : (front ++ partBytes part).length =
          front.length + partHeaderLength + part.2.length := by
        rw [List.length_append, length_partBytes, Nat.add_assoc]
      have total : (front ++ (part :: rest).flatMap partBytes).length =
          front.length + 8 + part.2.length + (rest.flatMap partBytes).length := by
        rw [shift, List.length_append, grown]
        rfl
      obtain ⟨found, inside⟩ := ih (front ++ partBytes part) (shift ▸ small)
      rw [← shift, grown] at found inside
      have here := standing_middle front (rest.flatMap partBytes)
        (show part.2.length < 4294967296 by omega)
      rw [← List.flatMap_cons] at here
      constructor
      · rw [partOffsets, List.map_cons, here.2, found]
      · intro o ho
        rcases List.mem_cons.mp ho with rfl | later
        · refine ⟨Nat.le_refl _, ?_⟩
          rw [here.1, total]
          omega
        · obtain ⟨lower, upper⟩ := inside o later
          simp only [partHeaderLength] at lower
          exact ⟨by omega, upper⟩

/-! ## The header -/

section Build

variable (parts : List (Tag × Bytes))

/-- The header up to the declared size. -/
def fixedBytes : Bytes :=
  Tag.container.toBytes ++ List.replicate 16 0 ++ Bytes.ofUInt16 majorVersion ++ Bytes.ofUInt16 0

/-- The declared size and the number of parts. -/
def countBytes : Bytes :=
  Bytes.ofNatLE 4 (headerLength + bodyLength parts) ++ Bytes.ofNatLE 4 parts.length

def tableBytes : Bytes :=
  (partOffsets (headerLength + 4 * parts.length) parts).flatMap (Bytes.ofNatLE 4)

theorem build_eq : build parts =
    fixedBytes ++ countBytes parts ++ (tableBytes parts ++ parts.flatMap partBytes) := by
  simp [build, fixedBytes, countBytes, tableBytes]

theorem length_fixedBytes : fixedBytes.length = 24 := rfl

theorem length_head : (fixedBytes ++ countBytes parts).length = 32 := by
  simp [length_fixedBytes, countBytes]

theorem length_tableBytes : (tableBytes parts).length = 4 * parts.length := by
  rw [tableBytes, Bytes.length_flatMap_ofNatLE, length_partOffsets]

theorem length_build : (build parts).length = 32 + bodyLength parts := by
  have head := length_head parts
  have body := length_flatMap_partBytes parts
  have table := length_tableBytes parts
  rw [build_eq]
  simp only [List.length_append] at head ⊢
  omega

variable {parts} (small : 32 + bodyLength parts < 4294967296)
include small

theorem declaredSize_build : declaredSize (build parts) = 32 + bodyLength parts := by
  have found := Bytes.u32At_middle fixedBytes
    (Bytes.ofNatLE 4 parts.length ++ (tableBytes parts ++ parts.flatMap partBytes)) small
  rw [declaredSize, build_eq, countBytes]
  simpa [headerLength, length_fixedBytes] using found

theorem declaredCount_build : declaredCount (build parts) = parts.length := by
  have few : parts.length < 4294967296 := by
    have := length_flatMap_partBytes parts
    omega
  have found := Bytes.u32At_middle (fixedBytes ++ Bytes.ofNatLE 4 (32 + bodyLength parts))
    (tableBytes parts ++ parts.flatMap partBytes) few
  rw [declaredCount, build_eq, countBytes]
  simpa [headerLength, length_fixedBytes] using found

theorem headerFits_build (few : parts.length ≤ 4096) : HeaderFits (build parts) where
  length := by
    rw [length_build]
    omega
  magic := rfl
  version := rfl
  size_ge := by
    rw [declaredSize_build small]
    omega
  size_le := Nat.le_of_eq ((declaredSize_build small).trans (length_build parts).symm)
  count_le := by
    rw [declaredCount_build small]
    exact few
  count_fits := by
    rw [declaredSize_build small, declaredCount_build small]
    have := twelve_le_bodyLength parts
    omega

theorem viewOf_build : viewOf (build parts) = build parts := by
  rw [viewOf, declaredSize_build small, ← length_build]
  exact List.take_length

/-- The parts of a built container are found at the offsets computed for them. -/
theorem standing_build :
    (partOffsets (headerLength + 4 * parts.length) parts).map (readBack (build parts)) = parts ∧
      ∀ o ∈ partOffsets (headerLength + 4 * parts.length) parts,
        headerLength + 4 * parts.length ≤ o ∧
          o + 8 + (Bytes.u32At (build parts) (o + 4)).toNat ≤ (build parts).length := by
  have front : (fixedBytes ++ countBytes parts ++ tableBytes parts).length =
      headerLength + 4 * parts.length := by
    rw [List.length_append, length_head, length_tableBytes]
    rfl
  have whole : fixedBytes ++ countBytes parts ++ tableBytes parts ++ parts.flatMap partBytes =
      build parts := by
    rw [build_eq, List.append_assoc]
  have found := standing_parts (fixedBytes ++ countBytes parts ++ tableBytes parts) parts
  rw [whole, front, length_build] at found
  rw [length_build]
  exact found small

/-- The table of a built container holds the offsets at which its parts were written. -/
theorem offsets_build :
    (offsets (build parts)).map UInt32.toNat =
      partOffsets (headerLength + 4 * parts.length) parts := by
  have words : ∀ o ∈ partOffsets (headerLength + 4 * parts.length) parts, o < 4294967296 := by
    intro o ho
    obtain ⟨-, inside⟩ := (standing_build small).2 o ho
    rw [length_build] at inside
    omega
  have table := Bytes.u32At_table (fixedBytes ++ countBytes parts) (parts.flatMap partBytes) _ words
  rw [length_partOffsets, length_head, ← tableBytes, ← build_eq] at table
  rw [offsets, declaredCount_build small, List.map_map]
  exact table

theorem fits_build {o : UInt32} (ho : o ∈ offsets (build parts)) :
    Part.Fits (viewOf (build parts)) (32 + 4 * declaredCount (build parts)) o := by
  have written : o.toNat ∈ partOffsets (headerLength + 4 * parts.length) parts := by
    rw [← offsets_build small]
    exact List.mem_map_of_mem ho
  obtain ⟨behind, inside⟩ := (standing_build small).2 o.toNat written
  rw [viewOf_build small, declaredCount_build small]
  exact ⟨behind, by omega, inside⟩

theorem parse_build_eq (few : parts.length ≤ 4096) :
    parse (build parts) = .ok (ofBytes (build parts)) :=
  parse_eq_ok_iff.mpr ⟨headerFits_build small few, fun _ ho => fits_build small ho, rfl⟩

/-- The parts that are parsed carry the tags and payloads that were given. -/
theorem readBack_parts :
    (ofBytes (build parts)).parts.map
      (fun p => (p.tag, (ofBytes (build parts)).payload p)) = parts := by
  have back := (standing_build small).1
  rw [← offsets_build small, List.map_map] at back
  rw [ofBytes, List.map_map, viewOf_build small]
  exact back

end Build

/-! ## Looking parts up -/

/-- Pairing parts with their payloads leaves the first one of a name the first. -/
theorem find?_pairs (c : Container) (tag : Tag) :
    (c.find? tag).map (fun p => (p.tag, c.payload p)) =
      (c.parts.map fun p => (p.tag, c.payload p)).find? (·.1 == tag) := by
  rw [List.find?_map]
  rfl

theorem findPreferring?_pairs (c : Container) (primary fallback : Tag) :
    (c.findPreferring? primary fallback).map (fun p => (p.tag, c.payload p)) =
      ((c.parts.map fun p => (p.tag, c.payload p)).find? (·.1 == primary)).or
        ((c.parts.map fun p => (p.tag, c.payload p)).find? (·.1 == fallback)) := by
  rw [findPreferring?, Option.map_or, find?_pairs, find?_pairs]

/-! ## Building in place

A writer that knows no offset in advance reserves the table and the size field
and fills them in while it appends.  `appendParts_eq` carries the whole buffer
through: the slots already filled, the slots still zero, and the parts behind
them. -/

/-- Overwrites the bytes from an offset on. -/
def patch (out : Bytes) (offset : Nat) (new : Bytes) : Bytes :=
  out.take offset ++ (new ++ out.drop (offset + new.length))

/-- Appends parts, the first of which has the given table index; the offset of each is
entered into the table as the part is appended. -/
def appendParts : (index : Nat) → (out : Bytes) → List (Tag × Bytes) → Bytes
  | _, out, [] => out
  | index, out, part :: rest =>
    appendParts (index + 1)
      (patch out (headerLength + 4 * index) (Bytes.ofNatLE 4 out.length) ++ partBytes part) rest

/-- The header with no size yet, and a table of zeros. -/
def reserved (count : Nat) : Bytes :=
  fixedBytes ++ (Bytes.ofNatLE 4 0 ++ Bytes.ofNatLE 4 count) ++ List.replicate (4 * count) 0

/-- Writes a container front to back, filling in the offsets and the size afterwards. -/
def buildInPlace (parts : List (Tag × Bytes)) : Bytes :=
  let out := appendParts 0 (reserved parts.length) parts
  patch out 24 (Bytes.ofNatLE 4 out.length)

theorem patch_middle (front rest : Bytes) {old new : Bytes} (same : old.length = new.length) :
    patch (front ++ (old ++ rest)) front.length new = front ++ (new ++ rest) := by
  rw [patch, List.take_left, ← same, ← List.drop_drop, List.drop_left, List.drop_left]

theorem appendParts_eq {front written body : Bytes} {index start : Nat}
    (parts : List (Tag × Bytes)) (atFront : front.length = headerLength)
    (atSlot : written.length = 4 * index)
    (atEnd : headerLength + 4 * index + 4 * parts.length + body.length = start) :
    appendParts index
        (front ++ written ++ (List.replicate (4 * parts.length) 0 ++ body)) parts =
      front ++ written ++ ((partOffsets start parts).flatMap (Bytes.ofNatLE 4) ++
        (body ++ parts.flatMap partBytes)) := by
  induction parts generalizing index start written body with
  | nil => simp [appendParts, partOffsets]
  | cons part rest ih =>
      rw [List.length_cons] at atEnd ⊢
      have slot : (front ++ written).length = headerLength + 4 * index := by
        rw [List.length_append, atFront, atSlot]
      have length : (front ++ written ++
          (List.replicate (4 * (rest.length + 1)) (0 : UInt8) ++ body)).length = start := by
        rw [List.length_append, slot, List.length_append, List.length_replicate]
        omega
      -- the first of the free slots is filled, those behind it stay as they are
      have free : List.replicate (4 * (rest.length + 1)) (0 : UInt8) ++ body =
          List.replicate 4 0 ++ (List.replicate (4 * rest.length) 0 ++ body) := by
        rw [← List.append_assoc, List.replicate_append_replicate, Nat.mul_succ, Nat.add_comm]
      have filled := patch_middle (front ++ written)
        (List.replicate (4 * rest.length) (0 : UInt8) ++ body)
        (show (List.replicate 4 (0 : UInt8)).length = (Bytes.ofNatLE 4 start).length by simp)
      rw [slot] at filled
      have next : front ++ written ++
          (Bytes.ofNatLE 4 start ++ (List.replicate (4 * rest.length) 0 ++ body)) ++
            partBytes part =
          front ++ (written ++ Bytes.ofNatLE 4 start) ++
            (List.replicate (4 * rest.length) 0 ++ (body ++ partBytes part)) := by
        simp only [List.append_assoc]
      have atSlot' : (written ++ Bytes.ofNatLE 4 start).length = 4 * (index + 1) := by
        rw [List.length_append, atSlot, Bytes.length_ofNatLE]
        omega
      have atEnd' : headerLength + 4 * (index + 1) + 4 * rest.length +
          (body ++ partBytes part).length = start + partHeaderLength + part.2.length := by
        rw [List.length_append, length_partBytes]
        omega
      rw [appendParts, length, free, filled, next, ih atSlot' atEnd', partOffsets]
      simp only [List.flatMap_cons, List.append_assoc]

theorem appendParts_reserved (parts : List (Tag × Bytes)) :
    appendParts 0 (reserved parts.length) parts =
      fixedBytes ++ (Bytes.ofNatLE 4 0 ++ (Bytes.ofNatLE 4 parts.length ++
        (tableBytes parts ++ parts.flatMap partBytes))) := by
  have atFront : (fixedBytes ++ (Bytes.ofNatLE 4 0 ++ Bytes.ofNatLE 4 parts.length)).length =
      headerLength := by
    simp [length_fixedBytes, headerLength]
  have appended := @appendParts_eq _ [] [] 0 _ parts atFront rfl rfl
  simp only [List.append_nil, List.nil_append, List.append_assoc] at appended
  rw [reserved, tableBytes]
  simp only [List.append_assoc]
  exact appended

/-- Filling in afterwards gives the same bytes as computing everything beforehand. -/
theorem buildInPlace_eq (parts : List (Tag × Bytes)) : buildInPlace parts = build parts := by
  have appended := appendParts_reserved parts
  have length : (appendParts 0 (reserved parts.length) parts).length =
      headerLength + bodyLength parts := by
    have body := length_flatMap_partBytes parts
    rw [appended]
    simp only [List.length_append, length_fixedBytes, Bytes.length_ofNatLE, length_tableBytes,
      headerLength]
    omega
  have sized := patch_middle fixedBytes
    (Bytes.ofNatLE 4 parts.length ++ (tableBytes parts ++ parts.flatMap partBytes))
    (show (Bytes.ofNatLE 4 0).length =
      (Bytes.ofNatLE 4 (headerLength + bodyLength parts)).length by simp)
  rw [length_fixedBytes] at sized
  rw [buildInPlace, length, appended, sized, build_eq, countBytes]
  simp only [List.append_assoc]

/-! ## The round trip -/

/-- Parsing what was built, with the offsets and the size filled in afterwards, gives the
parts back in order, and looking one up finds the first of its name. -/
theorem parse_build (parts : List (Tag × Bytes)) (few : parts.length ≤ 4096)
    (small : 32 + (parts.map fun part => 12 + part.2.length).sum < 4294967296) :
    buildInPlace parts = build parts ∧
    ∃ c, parse (build parts) = .ok c ∧
      c.header.size.toNat = (build parts).length ∧
      c.contents.map (fun found => (found.1.tag, found.2)) = parts ∧
      (∀ tag, (c.find? tag).map (fun p => (p.tag, c.payload p)) =
        parts.find? (·.1 == tag)) ∧
      ∀ primary fallback,
        (c.findPreferring? primary fallback).map (fun p => (p.tag, c.payload p)) =
          (parts.find? (·.1 == primary)).or (parts.find? (·.1 == fallback)) := by
  rw [← bodyLength_eq_sum] at small
  have back := readBack_parts small
  refine ⟨buildInPlace_eq parts, _, parse_build_eq small few, ?_, ?_, ?_, ?_⟩
  · rw [length_build]
    exact declaredSize_build small
  · rw [contents_eq, List.map_map]
    exact back
  · intro tag
    rw [find?_pairs, back]
  · intro primary fallback
    rw [findPreferring?_pairs, back]

/-- Of two parts of one name the first is found, empty as it is, and a name that no part
has is replaced by the other. -/
theorem parse_build_repeated :
    ∃ c, parse (build [(⟨0, 1, 2, 255⟩, []), (⟨68, 88, 66, 67⟩, [7]), (⟨0, 1, 2, 255⟩, [8, 9])]) =
        .ok c ∧
      c.contents.map (fun found => (found.1.tag, found.2)) =
        [(⟨0, 1, 2, 255⟩, []), (⟨68, 88, 66, 67⟩, [7]), (⟨0, 1, 2, 255⟩, [8, 9])] ∧
      (c.find? ⟨0, 1, 2, 255⟩).map (fun p => (p.tag, c.payload p)) =
        some (⟨0, 1, 2, 255⟩, []) ∧
      (c.findPreferring? ⟨0, 0, 0, 0⟩ ⟨68, 88, 66, 67⟩).map (fun p => (p.tag, c.payload p)) =
        some (⟨68, 88, 66, 67⟩, [7]) := by
  obtain ⟨-, c, parsed, -, contents, found, preferred⟩ :=
    parse_build [(⟨0, 1, 2, 255⟩, []), (⟨68, 88, 66, 67⟩, [7]), (⟨0, 1, 2, 255⟩, [8, 9])]
      (by decide) (by decide)
  refine ⟨c, parsed, contents, ?_, ?_⟩
  · rw [found]
    rfl
  · rw [preferred]
    rfl

end ShaderReport.Container
