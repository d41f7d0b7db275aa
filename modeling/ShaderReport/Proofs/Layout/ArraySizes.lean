/-
# The array size behind a name

A field may be an array of arrays, as deep as one likes.  Behind its name stands one size
for all levels, the number of elements that they make together.  For a matrix the
innermost level is no array of the source language: it holds the vectors that one matrix
is made of, and has to be taken out of the size again.

`Levels t element lengths type` states what a type is made of, without computing it:
arrays of the given lengths, outermost first, around `element`.  In a table whose
components stand before the types made from them, this is what `spine` finds
(`Levels.spine_eq`).

A reader of types without `spine` takes the levels off one after the other and keeps a
running product, held at the largest size, and a count of the levels.  `formByLevels?` is
this loop; it ends, and shows every field as `formOf` does (`formByLevels?_eq`).

As long as the product is a size, holding it changes nothing, and dividing by the number of
vectors leaves the product of the other lengths (`matrixCount_concat`).  `field_array_size`
puts this together for the line of every leaf.
-/
import ShaderReport.Proofs.Layout.Readings
import ShaderReport.Proofs.Layout.Recursion
import ShaderReport.Proofs.Types.ExactSize

namespace ShaderReport

/-! ## Array levels -/

namespace TypeTable

/-- Arrays of the given lengths, outermost first, around an element. -/
inductive Levels (t : TypeTable) (element : TypeId) : List UInt64 → TypeId → Prop
  | none : Levels t element [] element
  | array {type inner : TypeId} {length : UInt64} {lengths : List UInt64} :
      t.shape? type = some (.array inner length) → Levels t element lengths inner →
      Levels t element (length :: lengths) type

/-- A type of the table that is no array. -/
def Flat (t : TypeTable) (id : TypeId) : Prop := ∃ s, t.shape? id = some s ∧ s.isArray = false

section Levels

variable {t : TypeTable} (ht : t.Ordered)
include ht

theorem Levels.spine_eq {element type : TypeId} {lengths : List UInt64}
    (h : t.Levels element lengths type) (flat : t.Flat element) :
    t.spine type = ⟨lengths, element⟩ := by
  induction h with
  | none =>
      obtain ⟨s, hs, noArray⟩ := flat
      exact spine_of_not_array hs noArray
  | array hs _ ih => rw [spine_array ht hs, ih]

/-- Every type of the table has its levels. -/
theorem levels_spine {id : TypeId} (h : id < t.size) :
    t.Levels (t.spine id).element (t.spine id).lengths id ∧ t.Flat (t.spine id).element := by
  induction id using Nat.strongRecOn with
  | ind id ih =>
    obtain ⟨s, hs⟩ := exists_shape? h
    cases noArray : s.isArray with
    | false =>
        rw [spine_of_not_array hs noArray]
        exact ⟨.none, s, hs, noArray⟩
    | true =>
        cases s with
        | array inner length =>
            have older : inner < id := ht id _ hs inner List.mem_cons_self
            obtain ⟨levels, flat⟩ := ih inner older (Nat.lt_trans older h)
            rw [spine_array ht hs]
            exact ⟨.array hs levels, flat⟩
        | _ => cases noArray

end Levels

theorem Levels.lt_size {t : TypeTable} {element type : TypeId} {lengths : List UInt64}
    (h : t.Levels element lengths type) (flat : t.Flat element) : type < t.size := by
  cases h with
  | none =>
      obtain ⟨s, hs, _⟩ := flat
      exact lt_size_of_shape? hs
  | array hs _ => exact lt_size_of_shape? hs

theorem isMatrix_of_array {t : TypeTable} {id inner : TypeId} {length : UInt64}
    (h : t.shape? id = some (.array inner length)) : t.isMatrix id = false := by
  rw [isMatrix, structName?, h]
  rfl

end TypeTable

namespace Layout

open TypeTable

/-! ## Taking the levels off one by one -/

/-- How far the taking off has come. -/
structure Stripping where
  element : TypeId
  /-- How many elements the levels taken off make together. -/
  count : Nat
  /-- How many levels were taken off. -/
  levels : Nat
deriving DecidableEq

/-- Takes levels off until a matrix or no array is left; this is found out at most `depth`
times. -/
def Stripping.run? (t : TypeTable) : (depth : Nat) → Stripping → Option Stripping
  | 0, _ => none
  | depth + 1, s =>
    if t.isMatrix s.element then some s
    else
      match t.arrayElement? s.element, t.arrayLength? s.element with
      | some inner, some length =>
        run? t depth ⟨inner, saturate (s.count * length.toNat), s.levels + 1⟩
      | _, _ => some s

/-- Takes all levels off a type; what is no array has a count of zero. -/
def strip? (t : TypeTable) (depth : Nat) (type : TypeId) : Option Stripping :=
  if !t.isMatrix type && t.isArray type then Stripping.run? t depth ⟨type, 1, 0⟩
  else some ⟨type, 0, 0⟩

/-- What a field shows as once the levels are off its type. -/
def Stripping.form (t : TypeTable) (field : FieldFacts) (s : Stripping) : Form :=
  let (count, element) := match field.matrix with
    | none => (s.count, s.element)
    | some matrix =>
      let count :=
        if matrix.vectorCount ≠ 0 then s.count / matrix.vectorCount.toNat else s.count
      (if s.levels = 1 then 0 else count, matrixComponent t s.element)
  if t.isStruct element && !t.isMatrix element then .block element count else .leaf count

/-- What a field shows as, found by taking the levels off its type. -/
def formByLevels? (t : TypeTable) (depth : Nat) (type : TypeId) (field : FieldFacts) :
    Option Form :=
  if t.isStruct type && field.matrix.isNone then some (.block type 0)
  else (strip? t depth type).map (Stripping.form t field)

section Strip

variable {t : TypeTable} (ht : t.Ordered)
include ht

/-- Each round takes the outermost length and carries on with an older type. -/
theorem Stripping.run?_eq {element type : TypeId} {lengths : List UInt64}
    (h : t.Levels element lengths type) (flat : t.Flat element) {depth : Nat}
    (deep : type < depth) (count levels : Nat) :
    run? t depth ⟨type, count, levels⟩ =
      some ⟨element, lengths.foldl (fun n length => saturate (n * length.toNat)) count,
        levels + lengths.length⟩ := by
  induction h generalizing depth count levels with
  | none =>
      obtain ⟨depth, rfl⟩ := Nat.exists_eq_succ_of_ne_zero (Nat.ne_zero_of_lt deep)
      obtain ⟨s, hs, noArray⟩ := flat
      have last : t.arrayElement? element = none := by
        rw [arrayElement?, hs]
        cases s with
        | array inner length => cases noArray
        | _ => rfl
      rw [run?, last]
      exact ite_self _
  | @array type inner length lengths hs _ ih =>
      obtain ⟨depth, rfl⟩ := Nat.exists_eq_succ_of_ne_zero (Nat.ne_zero_of_lt deep)
      have older : inner < type := ht type _ hs inner List.mem_cons_self
      have element : t.arrayElement? type = some inner := by
        rw [arrayElement?, hs]
        rfl
      have first : t.arrayLength? type = some length := by
        rw [arrayLength?, hs]
        rfl
      have round : run? t (depth + 1) ⟨type, count, levels⟩ =
          run? t depth ⟨inner, saturate (count * length.toNat), levels + 1⟩ := by
        simp only [run?, isMatrix_of_array hs, element, first]
        rfl
      have enough : inner < depth := Nat.lt_of_lt_of_le older (Nat.le_of_lt_succ deep)
      rw [round, ih enough, List.foldl_cons, List.length_cons, Nat.add_right_comm,
        Nat.add_assoc]

theorem strip?_eq {element type : TypeId} {lengths : List UInt64}
    (h : t.Levels element lengths type) (flat : t.Flat element) {depth : Nat}
    (deep : type < depth) :
    strip? t depth type = some ⟨element, elementCount lengths, lengths.length⟩ := by
  cases h with
  | none =>
      obtain ⟨s, hs, noArray⟩ := flat
      have plain : t.isArray element = false := by
        rw [isArray, hs]
        exact noArray
      rw [strip?, plain, Bool.and_false]
      rfl
  | @array _ inner length lengths hs rest =>
      have array : t.isArray type = true := by
        rw [isArray, hs]
        rfl
      have loop := Stripping.run?_eq ht (.array hs rest) flat deep 1 0
      rw [Nat.zero_add] at loop
      rw [strip?, array, isMatrix_of_array hs]
      exact loop

/-- The loop ends, and shows a field as what its type's lengths say. -/
theorem formByLevels?_eq {type depth : Nat} (inTable : type < t.size) (deep : type < depth)
    (field : FieldFacts) :
    formByLevels? t depth type field = some (formOf t type field) := by
  unfold formByLevels? formOf
  split
  · rfl
  · obtain ⟨levels, flat⟩ := levels_spine ht inTable
    rw [strip?_eq ht levels flat deep, Option.map_some, Stripping.form]
    cases field.matrix with
    | none => rfl
    | some matrix =>
        simp only [matrixCount, ne_eq, ite_not]

end Strip

/-! ## The size behind the name -/

/-- How many elements arrays of the given lengths make together. -/
def elements (lengths : List UInt64) : Nat := (lengths.map UInt64.toNat).prod

/-- What stands behind a name: nothing, or one size for all levels. -/
def sizeText (lengths : List UInt64) : String :=
  if lengths = [] then "" else "[" ++ (elements lengths).repr ++ "]"

theorem elements_concat (outer : List UInt64) (last : UInt64) :
    elements (outer ++ [last]) = elements outer * last.toNat := by
  rw [elements, List.map_append, List.prod_append, List.map_singleton, List.prod_singleton,
    elements]

theorem elements_pos {lengths : List UInt64} (positive : ∀ length ∈ lengths, 1 ≤ length) :
    0 < elements lengths := by
  refine List.prod_pos_iff_forall_pos_nat.mpr ?_
  intro n hn
  obtain ⟨length, hl, rfl⟩ := List.mem_map.mp hn
  exact UInt64.le_iff_toNat_le.mp (positive length hl)

/-- Holding the running product at the largest size is the same as holding the whole one. -/
theorem foldl_saturate (lengths : List UInt64) (n : Nat) :
    lengths.foldl (fun n length => saturate (n * length.toNat)) (saturate n) =
      saturate (n * elements lengths) := by
  induction lengths generalizing n with
  | nil => rw [List.foldl_nil, elements, List.map_nil, List.prod_nil, Nat.mul_one]
  | cons length lengths ih =>
      rw [List.foldl_cons, saturate_mul, ih, elements, elements, List.map_cons, List.prod_cons,
        Nat.mul_assoc]

theorem elementCount_eq {lengths : List UInt64} (some : lengths ≠ [])
    (fits : elements lengths < 2 ^ 64) : elementCount lengths = elements lengths := by
  have running := foldl_saturate lengths 1
  rw [Nat.one_mul, saturate_eq_self (Nat.le_of_lt_succ fits)] at running
  cases lengths with
  | nil => exact absurd rfl some
  | cons length lengths => exact running

theorem arraySuffix_of_pos {n : Nat} (h : 0 < n) : arraySuffix n = "[" ++ n.repr ++ "]" :=
  if_neg (Nat.ne_of_gt h)

theorem arraySuffix_elementCount {lengths : List UInt64}
    (positive : ∀ length ∈ lengths, 1 ≤ length) (fits : elements lengths < 2 ^ 64) :
    arraySuffix (elementCount lengths) = sizeText lengths := by
  by_cases none : lengths = []
  · rw [sizeText, if_pos none, none]
    rfl
  · rw [elementCount_eq none fits, arraySuffix_of_pos (elements_pos positive), sizeText,
      if_neg none]

theorem vectorCount_ne_zero {matrix : MatrixFacts} (one : 1 ≤ matrix.vectorCount) :
    matrix.vectorCount ≠ 0 := by
  intro zero
  rw [zero] at one
  exact absurd one (by decide)

/-- Dividing by the number of vectors takes the innermost level out of the product. -/
theorem matrixCount_concat {matrix : MatrixFacts} {outer : List UInt64} {vectors : UInt64}
    (some : outer ≠ []) (each : vectors.toNat = matrix.vectorCount.toNat)
    (positive : 1 ≤ matrix.vectorCount) (fits : elements (outer ++ [vectors]) < 2 ^ 64) :
    matrixCount matrix (outer ++ [vectors]) = elements outer := by
  have pos : 0 < matrix.vectorCount.toNat := UInt32.le_iff_toNat_le.mp positive
  have many : (outer ++ [vectors]).length ≠ 1 := by
    have one := List.length_pos_of_ne_nil some
    rw [List.length_append, List.length_singleton]
    omega
  rw [matrixCount, if_neg many, if_neg (vectorCount_ne_zero positive),
    elementCount_eq (List.concat_ne_nil _ _) fits, elements_concat, each,
    Nat.mul_div_cancel _ pos]

theorem arraySuffix_matrixCount {matrix : MatrixFacts} {outer : List UInt64} {vectors : UInt64}
    (outerPositive : ∀ length ∈ outer, 1 ≤ length)
    (each : vectors.toNat = matrix.vectorCount.toNat) (positive : 1 ≤ matrix.vectorCount)
    (fits : elements (outer ++ [vectors]) < 2 ^ 64) :
    arraySuffix (matrixCount matrix (outer ++ [vectors])) = sizeText outer := by
  by_cases none : outer = []
  · rw [sizeText, if_pos none, none]
    rfl
  · rw [matrixCount_concat none each positive fits,
      arraySuffix_of_pos (elements_pos outerPositive), sizeText, if_neg none]

/-! ## Leaves -/

/-- The word in front of a matrix. -/
def orientationText : Orientation → String
  | .rowMajor => "row_major"
  | .columnMajor => "column_major"

/-- How the type of a matrix field reads. -/
def matrixText (matrix : MatrixFacts) (component : Component) : String :=
  orientationText matrix.orientation ++ " " ++ component.keyword ++
    matrix.rows.toNat.repr ++ "x" ++ matrix.cols.toNat.repr

theorem typeText_matrix {t : TypeTable} {type : TypeId} {field : FieldFacts}
    {matrix : MatrixFacts} (h : field.matrix = some matrix) :
    typeText t type field = matrixText matrix field.component := by
  rw [typeText, h]
  obtain ⟨orientation, rows, cols⟩ := matrix
  cases orientation with
  | _ => rfl

/-- The line of a leaf that reads as given. -/
def leafLine (field : FieldFacts) (place : Placement) (size : Nat) (type suffix : String) :
    LayoutLine :=
  .leaf place.indent place.width (type ++ " " ++ field.name ++ suffix ++ ";")
    (place.offset + field.offset.toUInt64) size

/-- How such a line reads. -/
def leafText (marker : Char) (field : FieldFacts) (place : Placement) (size : Nat)
    (type suffix : String) : String :=
  LayoutLine.noted marker
    (Text.blanks place.indent ++
      Text.padRight place.width (type ++ " " ++ field.name ++ suffix ++ ";"))
    ((place.offset.toNat + field.offset.toNat) % 2 ^ 64) size

theorem text_leafLine (marker : Char) (field : FieldFacts) (place : Placement) (size : Nat)
    (type suffix : String) :
    (leafLine field place size type suffix).text marker =
      leafText marker field place size type suffix := by
  rw [leafLine, LayoutLine.text_leaf, UInt64.toNat_add, UInt32.toNat_toUInt64, leafText]

theorem field_of_leaf {t : TypeTable} (facts : LayoutFacts) {type : TypeId} {field : FieldFacts}
    {count : Nat} (h : formOf t type field = .leaf count) (place : Placement) (size : Nat) :
    Layout.field t facts type field place size =
      [leafLine field place size (typeText t type field) (arraySuffix count)] := by
  simp only [Layout.field, fieldWith, h]
  rfl

section Leaf

variable {t : TypeTable} (ht : t.Ordered) {element type : TypeId} {lengths : List UInt64}
  (levels : t.Levels element lengths type) (flat : t.Flat element) {field : FieldFacts}
include ht levels flat

/-- Arrays of anything but structs are leaves that count all elements. -/
theorem formOf_plain (unmarked : field.matrix = none) (noStruct : t.isStruct element = false) :
    formOf t type field = .leaf (elementCount lengths) := by
  have outermost : t.isStruct type = false := by
    cases levels with
    | none => exact noStruct
    | array hs _ =>
        rw [isStruct, hs]
        rfl
  simp only [formOf, outermost, unmarked, levels.spine_eq ht flat, noStruct]
  rfl

/-- A field marked as a matrix is a leaf unless its component is a struct. -/
theorem formOf_matrix {matrix : MatrixFacts} (marked : field.matrix = some matrix)
    (noStruct : t.isStruct (matrixComponent t element) = false) :
    formOf t type field = .leaf (matrixCount matrix lengths) := by
  simp only [formOf, marked, levels.spine_eq ht flat, noStruct]
  rw [Option.isNone_some, Bool.and_false]
  rfl

end Leaf

theorem not_isStruct_of_scalar {t : TypeTable} {id : TypeId}
    (h : (t.shape? id).any Shape.isScalar) : t.isStruct id = false := by
  rw [isStruct]
  cases hs : t.shape? id with
  | none => rfl
  | some s =>
      rw [hs] at h
      cases s with
      | struct name fields => cases h
      | _ => rfl

theorem flat_of_vector {t : TypeTable} {element lane : TypeId}
    (h : t.vectorElement? element = some lane) : t.Flat element := by
  obtain ⟨s, hs, vector⟩ := Option.bind_eq_some_iff.mp h
  refine ⟨s, hs, ?_⟩
  cases s with
  | vector _ _ => rfl
  | _ => cases vector

theorem matrixComponent_of_vector {t : TypeTable} {element lane : TypeId}
    (h : t.vectorElement? element = some lane) : matrixComponent t element = lane := by
  rw [matrixComponent, h]
  rfl

/-- Arrays around the vectors of one matrix show the number of matrices. -/
theorem field_of_vectors {t : TypeTable} (ht : t.Ordered) {element type lane : TypeId}
    {outer : List UInt64} {vectors : UInt64} (levels : t.Levels element (outer ++ [vectors]) type)
    (vector : t.vectorElement? element = some lane) (scalar : (t.shape? lane).any Shape.isScalar)
    (positive : ∀ length ∈ outer, 1 ≤ length) (fits : elements (outer ++ [vectors]) < 2 ^ 64)
    {field : FieldFacts} {matrix : MatrixFacts} (marked : field.matrix = some matrix)
    (one : 1 ≤ matrix.vectorCount) (each : vectors.toNat = matrix.vectorCount.toNat)
    (facts : LayoutFacts) (place : Placement) (size : Nat) :
    Layout.field t facts type field place size =
      [leafLine field place size (matrixText matrix field.component) (sizeText outer)] := by
  have noStruct : t.isStruct (matrixComponent t element) = false := by
    rw [matrixComponent_of_vector vector]
    exact not_isStruct_of_scalar scalar
  rw [field_of_leaf facts (formOf_matrix ht levels (flat_of_vector vector) marked noStruct),
    typeText_matrix marked, arraySuffix_matrixCount positive each one fits]

/-! ## Every leaf -/

/-- A leaf shows one size for all its array levels, and a matrix one for the levels around
the array of its vectors.  The loop that takes levels off one by one ends with the same. -/
theorem field_array_size {t : TypeTable} (ht : t.Built) (facts : LayoutFacts)
    {element type : TypeId} {lengths : List UInt64} (levels : t.Levels element lengths type)
    (flat : t.Flat element) (positive : ∀ length ∈ lengths, 1 ≤ length)
    (fits : elements lengths < 2 ^ 64) (field : FieldFacts) (place : Placement) (size : Nat) :
    (∀ depth, type < depth → formByLevels? t depth type field = some (formOf t type field)) ∧
    (field.matrix = none → t.isStruct element = false →
      Layout.field t facts type field place size =
        [leafLine field place size (typeText t type field) (sizeText lengths)] ∧
      ∀ marker, (Layout.field t facts type field place size).map (LayoutLine.text marker) =
        [leafText marker field place size (typeText t type field) (sizeText lengths)]) ∧
    ∀ (matrix : MatrixFacts) (outer : List UInt64) (vectors : UInt64) (lane : TypeId),
      field.matrix = some matrix → 1 ≤ matrix.vectorCount → lengths = outer ++ [vectors] →
      vectors.toNat = matrix.vectorCount.toNat → t.vectorElement? element = some lane →
      (t.shape? lane).any Shape.isScalar →
      Layout.field t facts type field place size =
        [leafLine field place size (matrixText matrix field.component) (sizeText outer)] ∧
      ∀ marker, (Layout.field t facts type field place size).map (LayoutLine.text marker) =
        [leafText marker field place size (matrixText matrix field.component)
          (sizeText outer)] := by
  have ordered := ht.ordered
  -- a field of one line reads as that line does
  have reads : ∀ {declared suffix : String}, Layout.field t facts type field place size =
        [leafLine field place size declared suffix] →
      ∀ marker, (Layout.field t facts type field place size).map (LayoutLine.text marker) =
        [leafText marker field place size declared suffix] := by
    intro declared suffix line marker
    rw [line, List.map_singleton, text_leafLine]
  refine ⟨?_, ?_, ?_⟩
  · intro depth deep
    exact formByLevels?_eq ordered (levels.lt_size flat) deep field
  · intro unmarked noStruct
    have line : Layout.field t facts type field place size =
        [leafLine field place size (typeText t type field) (sizeText lengths)] := by
      rw [field_of_leaf facts (formOf_plain ordered levels flat unmarked noStruct),
        arraySuffix_elementCount positive fits]
    exact ⟨line, reads line⟩
  · intro matrix outer vectors lane marked one innermost each vector scalar
    subst innermost
    have around : ∀ length ∈ outer, 1 ≤ length :=
      fun length h => positive length (List.mem_append_left _ h)
    have line := field_of_vectors ordered levels vector scalar around fits marked one each facts
      place size
    exact ⟨line, reads line⟩

/-- Two arrays of four vectors, and two arrays of three numbers. -/
def nestedArrays : List Request :=
  [.shape .float, .shape (.vector 0 3), .shape (.array 1 4), .shape (.array 2 2),
   .shape (.array 0 3), .shape (.array 4 2)]

/-- Two matrices, each stored as four rows. -/
def twoMatrices : FieldFacts :=
  { name := "m", component := .f32, matrix := some ⟨.rowMajor, 4, 3⟩ }

def sixNumbers : FieldFacts := { name := "grid", component := .f32 }

theorem field_array_size_nestedArrays :
    Layout.field (TypeTable.run {} nestedArrays) {} 3 twoMatrices ⟨16, 3, 50⟩ 0 =
        [.leaf 3 50 "row_major float4x3 m[2];" 16 0] ∧
    (Layout.field (TypeTable.run {} nestedArrays) {} 3 twoMatrices ⟨16, 3, 50⟩ 0).map
        (LayoutLine.text ';') =
      ["   row_major float4x3 m[2];                          ; Offset:   16"] ∧
    Layout.field (TypeTable.run {} nestedArrays) {} 5 sixNumbers ⟨16, 3, 50⟩ 0 =
        [.leaf 3 50 "float grid[6];" 16 0] ∧
    (Layout.field (TypeTable.run {} nestedArrays) {} 5 sixNumbers ⟨16, 3, 50⟩ 0).map
        (LayoutLine.text ';') =
      ["   float grid[6];                                    ; Offset:   16"] := by
  have built : (TypeTable.run {} nestedArrays).Built := ⟨nestedArrays, by decide +kernel, rfl⟩
  -- the sizes of two by four, and of two by three
  have positive : ∀ vectors : UInt64, 1 ≤ vectors → ∀ length ∈ [2, vectors], 1 ≤ length := by
    intro vectors h
    simp only [List.forall_mem_cons]
    exact ⟨by decide, h, List.forall_mem_nil _⟩
  have matrices : (TypeTable.run {} nestedArrays).shape? 3 = some (.array 2 2) := by
    decide +kernel
  have rows : (TypeTable.run {} nestedArrays).shape? 2 = some (.array 1 4) := by decide +kernel
  have row : (TypeTable.run {} nestedArrays).Flat 1 := ⟨.vector 0 3, by decide +kernel, rfl⟩
  obtain ⟨-, -, marked⟩ := field_array_size built {} (.array matrices (.array rows .none)) row
    (positive 4 (by decide)) (by decide) twoMatrices ⟨16, 3, 50⟩ 0
  obtain ⟨matrixLine, matrixText⟩ := marked ⟨.rowMajor, 4, 3⟩ [2] 4 0 rfl (by decide) rfl rfl
    (by decide +kernel) (by decide +kernel)
  have lists : (TypeTable.run {} nestedArrays).shape? 5 = some (.array 4 2) := by decide +kernel
  have list : (TypeTable.run {} nestedArrays).shape? 4 = some (.array 0 3) := by decide +kernel
  have number : (TypeTable.run {} nestedArrays).Flat 0 := ⟨.float, by decide +kernel, rfl⟩
  obtain ⟨-, plain, -⟩ := field_array_size built {} (.array lists (.array list .none)) number
    (positive 3 (by decide)) (by decide) sixNumbers ⟨16, 3, 50⟩ 0
  obtain ⟨numberLine, numberText⟩ := plain rfl (by decide +kernel)
  refine ⟨?_, ?_, ?_, ?_⟩
  · rw [matrixLine]
    decide +kernel
  · rw [matrixText]
    decide +kernel
  · rw [numberLine]
    decide +kernel
  · rw [numberText]
    decide +kernel

end Layout

end ShaderReport
