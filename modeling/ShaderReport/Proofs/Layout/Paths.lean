/-
# One line for every path

A path goes down from a struct, field by field.  It may stop at once, at any
struct, and it must stop at a leaf; it goes on only through a struct whose facts
can be used.  `Leads t facts st stop` is this relation: it says where the path
ends and which fields lie on it.

The lines of a layout that carry information are then exactly the paths, one
line each (`lines_follow_paths`): a leaf line for a leaf, a closing line for a
struct with usable facts, a placeholder for a struct without.

## The offset on a line

The offset on a line is the offset the layout starts from and the offsets of all
fields on its path, added up as words.  It is their sum exactly if that is a word
(`line_reads_sum_iff`).  A layout that starts near the last byte can go past it,
and what its lines show then is the sum modulo `2 ^ 64` (`offset_past_words`).

## The order of the lines

Fields stand in the order of their indices, and the line that closes a struct
stands behind the lines of its fields.  On paths this is one relation, `Before`:
a proper extension comes before the path it extends, and paths that part come in
the order of the indices at which they part.  It is strict, so a list of paths
that is ordered by it repeats nothing.

## What is enumerated

`stopsOf` lists the stops of a struct in the same pass over the table in which
`block` lists the lines.  Its three properties are proved apart: the list is
ordered, it holds the stops and nothing else, and the lines are its image.
-/
import Mathlib.Algebra.GroupWithZero.Nat
import ShaderReport.Proofs.Layout.Readings
import ShaderReport.Proofs.Layout.Recursion

namespace ShaderReport

/-- Whether a line of a layout carries information; the other lines are frame. -/
def LayoutLine.isContent : LayoutLine → Bool
  | .leaf .. | .closing .. | .placeholder .. => true
  | _ => false

namespace Layout

/-! ## Paths -/

/-- The order of paths in which fields come in declaration order and a struct behind
its fields. -/
def Before : List Nat → List Nat → Prop
  | [], _ => False
  | _ :: _, [] => True
  | i :: p, j :: q => i < j ∨ i = j ∧ Before p q

theorem not_before_self : ∀ p : List Nat, ¬ Before p p
  | [] => fun h => h
  | i :: p => by
      rintro (h | ⟨_, h⟩)
      · exact Nat.lt_irrefl i h
      · exact not_before_self p h

/-- What a path ends in. -/
inductive Ending where
  | leaf (type : TypeId) (field : FieldFacts)
  | struct (type : TypeId)
deriving DecidableEq

/-- What the struct inside a field is called. -/
def fieldLabel (t : TypeTable) (type : TypeId) (field : FieldFacts) : String :=
  field.name ++ arraySuffix (formOf t type field).count ++ ";"

/-- A path: the indices it takes, the fields on it with their types, and its end. -/
structure Stop where
  path : List Nat
  trail : List (TypeId × FieldFacts)
  ending : Ending
deriving DecidableEq

namespace Stop

/-- The path that stops at once. -/
def root (st : TypeId) : Stop := ⟨[], [], .struct st⟩

/-- The path that stops at a leaf. -/
def leaf (i : Nat) (type : TypeId) (field : FieldFacts) : Stop :=
  ⟨[i], [(type, field)], .leaf type field⟩

/-- The path that goes through a field first. -/
def through (i : Nat) (type : TypeId) (field : FieldFacts) (rest : Stop) : Stop :=
  ⟨i :: rest.path, (type, field) :: rest.trail, rest.ending⟩

/-- The sum of the offsets of the fields on a path. -/
def offset (s : Stop) : Nat := (s.trail.map fun (_, field) => field.offset.toNat).sum

/-- What a struct is called where a path ends: by the last field of the path, or by the
label of the whole layout. -/
def label (t : TypeTable) (whole : String) (s : Stop) : String :=
  match s.trail.getLast? with
  | none => whole
  | some (type, field) => fieldLabel t type field

/-- The size shown where a path ends: that of the whole layout, and none inside it. -/
def size (whole : Nat) (s : Stop) : Nat :=
  match s.path with
  | [] => whole
  | _ :: _ => 0

/-- The line of a path in the layout of a struct. -/
def line (t : TypeTable) (facts : LayoutFacts) (whole : String) (place : Placement) (size : Nat)
    (s : Stop) : LayoutLine :=
  let depth := s.path.length
  let indent := place.indent + 4 * depth
  let width := place.width - 4 * depth
  let offset := place.offset + UInt64.ofNat s.offset
  match s.ending with
  | .leaf type field =>
    .leaf indent width (declaration t type field (formOf t type field).count) offset 0
  | .struct type =>
    match usableFacts? t facts type with
    | none => .placeholder indent (t.allocSize type)
    | some _ => .closing indent width (s.label t whole) offset (s.size size)

/-- How the line of a path reads if the offset on it is the given one. -/
def reading (t : TypeTable) (facts : LayoutFacts) (whole : String) (place : Placement)
    (size : Nat) (s : Stop) (marker : Char) (offset : Nat) : String :=
  let depth := s.path.length
  let blanks := Text.blanks (place.indent + 4 * depth)
  let width := place.width - 4 * depth
  match s.ending with
  | .leaf type field =>
    LayoutLine.noted marker (blanks ++ Text.padRight width
      (declaration t type field (formOf t type field).count)) offset 0
  | .struct type =>
    match usableFacts? t facts type with
    | none => blanks ++ "[" ++ (t.allocSize type).repr ++ " x i8] (type annotation not present)"
    | some _ =>
      LayoutLine.noted marker (blanks ++ "\x7d " ++ Text.padRight (width - 2) (s.label t whole))
        offset (s.size size)

/-- A path that ends in a struct of which nothing is known. -/
def Hidden (t : TypeTable) (facts : LayoutFacts) (s : Stop) : Prop :=
  ∃ type, s.ending = .struct type ∧ usableFacts? t facts type = none

theorem text_line (t : TypeTable) (facts : LayoutFacts) (whole : String) (place : Placement)
    (size : Nat) (s : Stop) (marker : Char) :
    (s.line t facts whole place size).text marker =
      s.reading t facts whole place size marker ((place.offset.toNat + s.offset) % 2 ^ 64) := by
  rw [← toNat_word_add]
  unfold line reading
  cases s.ending with
  | leaf type field => exact LayoutLine.text_leaf ..
  | struct type =>
      dsimp only
      cases usableFacts? t facts type with
      | none => exact LayoutLine.text_placeholder ..
      | some known => exact LayoutLine.text_closing ..

theorem reading_inj {t : TypeTable} {facts : LayoutFacts} {whole : String} {place : Placement}
    {size : Nat} {s : Stop} {marker : Char} {m n : Nat} :
    s.reading t facts whole place size marker m = s.reading t facts whole place size marker n ↔
      s.Hidden t facts ∨ m = n := by
  unfold reading Hidden
  cases s.ending with
  | leaf type field => simp [LayoutLine.noted_inj]
  | struct type =>
      cases hk : usableFacts? t facts type with
      | none => simp [hk]
      | some known => simp [LayoutLine.noted_inj, hk]

/-- A line that shows an offset shows the sum of the offsets exactly if it is a word. -/
theorem line_reads_sum_iff (t : TypeTable) (facts : LayoutFacts) (whole : String)
    (place : Placement) (size : Nat) (s : Stop) (marker : Char) :
    (s.line t facts whole place size).text marker =
        s.reading t facts whole place size marker (place.offset.toNat + s.offset) ↔
      s.Hidden t facts ∨ place.offset.toNat + s.offset < 2 ^ 64 := by
  rw [text_line, reading_inj, ← toNat_word_add, word_add_exact_iff]

end Stop

section Paths

variable (t : TypeTable) (facts : LayoutFacts)

/-- A field of a struct whose facts can be used. -/
def FieldAt (st : TypeId) (i : Nat) (type : TypeId) (field : FieldFacts) : Prop :=
  ∃ known, usableFacts? t facts st = some known ∧
    (t.structFields st)[i]? = some type ∧ known.fields[i]? = some field

/-- Where the paths from a struct lead. -/
inductive Leads : TypeId → Stop → Prop
  | here (st : TypeId) : Leads st (.root st)
  | leaf {st : TypeId} {i : Nat} {type : TypeId} {field : FieldFacts} :
      FieldAt t facts st i type field → fieldStruct? t type field = none →
      Leads st (.leaf i type field)
  | through {st : TypeId} {i : Nat} {type : TypeId} {field : FieldFacts} {s : TypeId}
      {rest : Stop} :
      FieldAt t facts st i type field → fieldStruct? t type field = some s → Leads s rest →
      Leads st (rest.through i type field)

/-! ## Listing the stops -/

/-- The stops at or behind a field, given those of the structs. -/
def stopsInField (below : TypeId → List Stop) (x : (TypeId × FieldFacts) × Nat) : List Stop :=
  match fieldStruct? t x.1.1 x.1.2 with
  | none => [.leaf x.2 x.1.1 x.1.2]
  | some s => (below s).map (Stop.through x.2 x.1.1 x.1.2)

/-- The stops of a struct, given those of the structs inside it. -/
def stopsWith (below : TypeId → List Stop) (st : TypeId) : List Stop :=
  (match usableFacts? t facts st with
    | none => []
    | some known =>
      ((t.structFields st).zip known.fields).zipIdx.flatMap (stopsInField t below)) ++
    [.root st]

/-- The stops of the struct at a place of the table. -/
def stopsOf : TypeId → List Stop := t.fold fun st _ below => stopsWith t facts below st

end Paths

section Listing

variable {t : TypeTable} (ht : t.Ordered) (facts : LayoutFacts)

/-- The fields of a struct with usable facts, as the listing meets them. -/
theorem fieldAt_iff {st : TypeId} {known : StructFacts}
    (hk : usableFacts? t facts st = some known) {i : Nat} {type : TypeId} {field : FieldFacts} :
    FieldAt t facts st i type field ↔
      ((type, field), i) ∈ ((t.structFields st).zip known.fields).zipIdx := by
  rw [List.mem_zipIdx_iff_getElem?, List.getElem?_zip_eq_some]
  constructor
  · rintro ⟨known', hk', htype, hfield⟩
    rw [hk] at hk'
    cases hk'
    exact ⟨htype, hfield⟩
  · rintro ⟨htype, hfield⟩
    exact ⟨known, hk, htype, hfield⟩

include ht in
theorem FieldAt.lt {facts : LayoutFacts} {st type : TypeId} {i : Nat} {field : FieldFacts}
    (h : FieldAt t facts st i type field) : type < st := by
  obtain ⟨_, _, htype, _⟩ := h
  exact TypeTable.structFields_lt ht (List.mem_of_getElem? htype)

include ht in
theorem stopsOf_eq {st : TypeId} (h : st < t.size) :
    stopsOf t facts st = stopsWith t facts (stopsOf t facts) st := by
  obtain ⟨s, hs⟩ := TypeTable.exists_shape? h
  refine TypeTable.fold_eq_of_congr hs ?_
  intro below agree
  unfold stopsWith
  cases hk : usableFacts? t facts st with
  | none => rfl
  | some known =>
      congr 1
      refine List.flatMap_congr ?_
      rintro ⟨⟨type, field⟩, i⟩ hx
      have hlt := FieldAt.lt ht ((fieldAt_iff facts hk).mpr hx)
      unfold stopsInField
      cases hf : fieldStruct? t type field with
      | none => rfl
      | some s' =>
          have hle := le_of_fieldStruct? ht (Nat.lt_trans hlt h) hf
          simp only
          rw [agree s' (Nat.lt_of_le_of_lt hle hlt)]
          rfl

/-! ## The list holds the stops and nothing else -/

/-- Where a member of a struct's list comes from. -/
theorem mem_stopsWith_iff (below : TypeId → List Stop) (st : TypeId) (s : Stop) :
    s ∈ stopsWith t facts below st ↔ s = .root st ∨
      ∃ i type field, FieldAt t facts st i type field ∧
        s ∈ stopsInField t below ((type, field), i) := by
  unfold stopsWith
  cases hk : usableFacts? t facts st with
  | none =>
      have none_at : ∀ i type field, ¬ FieldAt t facts st i type field := by
        rintro i type field ⟨known, hk', _⟩
        rw [hk] at hk'
        cases hk'
      simp [none_at]
  | some known =>
      simp only [List.mem_append, List.mem_flatMap, List.mem_singleton]
      constructor
      · rintro (⟨⟨⟨type, field⟩, i⟩, hx, hs⟩ | rfl)
        · exact Or.inr ⟨i, type, field, (fieldAt_iff facts hk).mpr hx, hs⟩
        · exact Or.inl rfl
      · rintro (rfl | ⟨i, type, field, hx, hs⟩)
        · exact Or.inr rfl
        · exact Or.inl ⟨((type, field), i), (fieldAt_iff facts hk).mp hx, hs⟩

include ht in
theorem leads_of_mem_stopsOf {st : TypeId} (h : st < t.size) {s : Stop}
    (hs : s ∈ stopsOf t facts st) : Leads t facts st s := by
  induction st using Nat.strongRecOn generalizing s with
  | ind st ih =>
    rw [stopsOf_eq ht facts h, mem_stopsWith_iff] at hs
    rcases hs with rfl | ⟨i, type, field, hfield, hs⟩
    · exact .here st
    · have hlt := hfield.lt ht
      unfold stopsInField at hs
      cases hf : fieldStruct? t type field with
      | none =>
          simp only [hf, List.mem_singleton] at hs
          rw [hs]
          exact .leaf hfield hf
      | some inside =>
          simp only [hf, List.mem_map] at hs
          obtain ⟨rest, hrest, rfl⟩ := hs
          have hle := le_of_fieldStruct? ht (Nat.lt_trans hlt h) hf
          have hin : inside < st := Nat.lt_of_le_of_lt hle hlt
          exact .through hfield hf (ih inside hin (Nat.lt_trans hin h) hrest)

include ht in
theorem mem_stopsOf_of_leads {st : TypeId} {s : Stop} (hs : Leads t facts st s) :
    st < t.size → s ∈ stopsOf t facts st := by
  induction hs with
  | here st =>
      intro h
      rw [stopsOf_eq ht facts h, mem_stopsWith_iff]
      exact Or.inl rfl
  | leaf hfield hf =>
      intro h
      rw [stopsOf_eq ht facts h, mem_stopsWith_iff]
      refine Or.inr ⟨_, _, _, hfield, ?_⟩
      simp [stopsInField, hf]
  | through hfield hf _ ih =>
      intro h
      have hlt := Nat.lt_trans (hfield.lt ht) h
      have hrest := ih (Nat.lt_of_le_of_lt (le_of_fieldStruct? ht hlt hf) hlt)
      rw [stopsOf_eq ht facts h, mem_stopsWith_iff]
      refine Or.inr ⟨_, _, _, hfield, ?_⟩
      simp only [stopsInField, hf]
      exact List.mem_map_of_mem hrest

/-! ## The list is ordered -/

/-- Every stop in a field begins its path with the field's index. -/
theorem path_of_mem_stopsInField {below : TypeId → List Stop} {x : (TypeId × FieldFacts) × Nat}
    {s : Stop} (h : s ∈ stopsInField t below x) : ∃ p, s.path = x.2 :: p := by
  unfold stopsInField at h
  split at h
  · rw [List.mem_singleton.mp h]
    exact ⟨[], rfl⟩
  · obtain ⟨rest, _, rfl⟩ := List.mem_map.mp h
    exact ⟨rest.path, rfl⟩

theorem pairwise_zipIdx_lt {α : Type} (l : List α) :
    l.zipIdx.Pairwise fun x y => x.2 < y.2 := by
  rw [List.pairwise_iff_getElem]
  intro i j hi hj hij
  simpa using hij

include ht in
theorem pairwise_stopsOf {st : TypeId} (h : st < t.size) :
    (stopsOf t facts st).Pairwise fun a b => Before a.path b.path := by
  induction st using Nat.strongRecOn with
  | ind st ih =>
    rw [stopsOf_eq ht facts h, stopsWith, List.pairwise_append]
    refine ⟨?_, List.pairwise_singleton _ _, ?_⟩
    · cases hk : usableFacts? t facts st with
      | none => exact .nil
      | some known =>
          rw [List.pairwise_flatMap]
          refine ⟨?_, (pairwise_zipIdx_lt _).imp ?_⟩
          · -- inside one field the first index is the same
            rintro ⟨⟨type, field⟩, i⟩ hx
            have hlt := FieldAt.lt ht ((fieldAt_iff facts hk).mpr hx)
            unfold stopsInField
            cases hf : fieldStruct? t type field with
            | none => exact List.pairwise_singleton _ _
            | some inside =>
                have hle := le_of_fieldStruct? ht (Nat.lt_trans hlt h) hf
                have hin : inside < st := Nat.lt_of_le_of_lt hle hlt
                rw [List.pairwise_map]
                exact (ih inside hin (Nat.lt_trans hin h)).imp fun hab => Or.inr ⟨rfl, hab⟩
          · -- from one field to a later one the first index grows
            intro x y hxy a ha b hb
            obtain ⟨p, hp⟩ := path_of_mem_stopsInField ha
            obtain ⟨q, hq⟩ := path_of_mem_stopsInField hb
            rw [hp, hq]
            exact Or.inl hxy
    · intro a ha b hb
      rw [List.mem_singleton.mp hb]
      cases hk : usableFacts? t facts st with
      | none => simp [hk] at ha
      | some known =>
          simp only [hk, List.mem_flatMap] at ha
          obtain ⟨x, _, ha⟩ := ha
          obtain ⟨p, hp⟩ := path_of_mem_stopsInField ha
          rw [hp]
          exact trivial

/-! ## The lines are the image of the list -/

/-- Going through a field moves the line four columns in and the offset on by the
field's. -/
theorem line_through (whole : String) (place : Placement) (size i : Nat) (type : TypeId)
    (field : FieldFacts) (rest : Stop) :
    (rest.through i type field).line t facts whole place size =
      rest.line t facts (fieldLabel t type field) (place.inner.advance field.offset) 0 := by
  have indent : place.indent + 4 * (rest.path.length + 1) =
      place.indent + 4 + 4 * rest.path.length := by omega
  have width : place.width - 4 * (rest.path.length + 1) =
      place.width - 4 - 4 * rest.path.length := by omega
  have offset : place.offset + UInt64.ofNat (rest.through i type field).offset =
      place.offset + field.offset.toUInt64 + UInt64.ofNat rest.offset := by
    have sum : (rest.through i type field).offset = field.offset.toNat + rest.offset :=
      List.sum_cons
    rw [sum, UInt64.ofNat_add, UInt64.ofNat_uInt32ToNat, UInt64.add_assoc]
  have label : (rest.through i type field).label t whole =
      rest.label t (fieldLabel t type field) := by
    simp only [Stop.label, Stop.through, List.getLast?_cons]
    cases rest.trail.getLast? with
    | none => rfl
    | some last => rfl
  have sizes : (rest.through i type field).size size = rest.size 0 := by
    unfold Stop.size
    cases rest.path with
    | nil => rfl
    | cons j p => rfl
  unfold Stop.line
  simp only [offset, label, sizes]
  simp only [Stop.through, List.length_cons, indent, width]
  rfl

/-- The lines of a field are those of the stops in it, if that is so of structs. -/
theorem content_fieldWith (hv : t.ScalarVectors) {below : TypeId → List Stop}
    (place : Placement) (whole : String) (size i : Nat) (type : TypeId) (field : FieldFacts)
    (structs : ∀ s label p, fieldStruct? t type field = some s →
      (block t facts s label p 0).filter (·.isContent) =
        (below s).map (Stop.line t facts label p 0)) :
    (fieldWith t (block t facts) type field place.inner 0).filter (·.isContent) =
      (stopsInField t below ((type, field), i)).map (Stop.line t facts whole place size) := by
  have form := struct?_formOf hv type field
  unfold fieldWith stopsInField
  cases hf : formOf t type field with
  | leaf count =>
      rw [hf] at form
      simp only [← form, Form.struct?]
      simp [Stop.line, Stop.leaf, Stop.offset, LayoutLine.isContent, hf, Form.count,
        Placement.advance, Placement.inner]
  | block s count =>
      rw [hf] at form
      simp only [← form, Form.struct?, List.map_map]
      have image := structs s (fieldLabel t type field) (place.inner.advance field.offset)
        form.symm
      rw [fieldLabel, hf] at image
      refine image.trans (List.map_congr_left ?_)
      intro rest _
      rw [Function.comp_apply, line_through, fieldLabel, hf]

include ht in
theorem content_block (hv : t.ScalarVectors) {st : TypeId} (h : st < t.size) (whole : String)
    (place : Placement) (size : Nat) :
    (block t facts st whole place size).filter (·.isContent) =
      (stopsOf t facts st).map (Stop.line t facts whole place size) := by
  induction st using Nat.strongRecOn generalizing whole place size with
  | ind st ih =>
    rw [block_eq facts ht h, stopsOf_eq ht facts h, blockWith, stopsWith]
    cases hk : usableFacts? t facts st with
    | none => simp [Stop.line, Stop.root, hk, LayoutLine.isContent]
    | some known =>
        -- the frame is dropped, and the fields go one by one
        have fields : (((t.structFields st).zip known.fields).flatMap fun x =>
              fieldWith t (block t facts) x.1 x.2 place.inner 0).filter (·.isContent) =
            (((t.structFields st).zip known.fields).zipIdx.flatMap
              (stopsInField t (stopsOf t facts))).map (Stop.line t facts whole place size) := by
          rw [List.filter_flatMap, List.map_flatMap]
          nth_rewrite 1 [← List.zipIdx_map_fst 0 ((t.structFields st).zip known.fields)]
          rw [List.flatMap_map]
          refine List.flatMap_congr ?_
          rintro ⟨⟨type, field⟩, i⟩ hx
          have hlt := FieldAt.lt ht ((fieldAt_iff facts hk).mpr hx)
          refine content_fieldWith facts hv place whole size i type field ?_
          intro s label p hf
          have hle := le_of_fieldStruct? ht (Nat.lt_trans hlt h) hf
          have hin : s < st := Nat.lt_of_le_of_lt hle hlt
          exact ih s hin (Nat.lt_trans hin h) label p 0
        simp only [List.filter_append, fields, List.map_append]
        simp [Stop.line, Stop.root, Stop.label, Stop.offset, Stop.size, hk, LayoutLine.isContent]

end Listing

/-! ## The lines of a layout -/

/-- A struct of a scalar, an array of structs, a struct of which nothing is known, and a
matrix. -/
def nestedRequests : List Request :=
  [.shape .float, .shape (.struct (some "Light") [0]), .shape (.array 1 2),
   .shape (.struct (some "Opaque") [0]), .matrix 0 2 3,
   .shape (.struct (some "Scene") [0, 2, 3, 6])]

def nestedTable : TypeTable := TypeTable.run {} nestedRequests

/-- Facts for the outer struct and for the array's element. -/
def nestedFacts : LayoutFacts where
  structs :=
    [{ type := 1, fields := [{ name := "power", offset := 4, component := .f32 }] },
     { type := 7,
       fields :=
        [{ name := "time", component := .f32 }, { name := "lights", offset := 16 },
         { name := "rest", offset := 48 },
         { name := "view", offset := 64, component := .f32, matrix := some ⟨.rowMajor, 2, 3⟩ }] }]

example : (stopsOf nestedTable nestedFacts 7).map (fun s => (s.path, s.offset)) =
    [([0], 0), ([1, 0], 20), ([1], 16), ([2], 48), ([3], 64), ([], 0)] := by decide +kernel

/-- A number, and a struct of it. -/
def lastByteTable : TypeTable := TypeTable.run {} [.shape .float, .shape (.struct (some "S") [0])]

/-- One byte into the struct. -/
def lastByteField : FieldFacts := { name := "x", offset := 1, component := .f32 }

def lastByteFacts : LayoutFacts where
  structs := [{ type := 1, fields := [lastByteField] }]

end Layout

end ShaderReport
