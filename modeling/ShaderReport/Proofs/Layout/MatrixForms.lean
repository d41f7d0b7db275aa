/-
# The two forms of a matrix

A matrix field has one of two types: an array of vectors, or a struct that bears a
matrix name and has such an array inside.  Arrays of matrices are arrays around either.

The levels that are taken off a field's type end at a struct.  So around the struct form
they are the lengths of the array of matrices alone, and there is nothing to divide out
of their product; the division by the number of vectors, and the rule that one level is a
matrix on its own, are made for the other form.  `matrix_forms_agree_iff` states both
lines, and when they read the same: for a single matrix, and for arrays of two levels or
more in which every matrix is one vector.

Two lines can only read the same if they show the same size, because the `;` behind it
is the last character that is no blank (`padRight_inj`), and because sizes have different
numerals (`arraySuffix_inj`).
-/
import ShaderReport.Proofs.Layout.ArraySizes
import ShaderReport.Proofs.Types.Matrices

namespace ShaderReport

/-! ## Matrix structs -/

namespace TypeTable

section Struct

variable {t : TypeTable} {element m : TypeId} {rows cols : UInt32}
  (h : t.MatrixStruct element rows cols m)
include h

theorem MatrixStruct.flat : t.Flat m := by
  obtain ⟨_, _, _, struct, -⟩ := h
  exact ⟨_, struct, rfl⟩

theorem MatrixStruct.component : Layout.matrixComponent t m = element := by
  have inside := h.matrixElement?
  obtain ⟨_, _, _, struct, -⟩ := h
  have noVector : t.vectorElement? m = none := by
    rw [vectorElement?, struct]
    rfl
  rw [Layout.matrixComponent, noVector, inside]
  rfl

end Struct

/-- The matrix struct at a place was built by a request for a matrix, under a name that was
free; further requests may have followed. -/
inductive BuiltMatrix (element : TypeId) (rows cols : UInt32) : TypeTable → TypeId → Prop
  | built {t : TypeTable} : t.Built → element < t.size →
      t.structByName? (matrixName (t.text element) rows cols) = none →
      BuiltMatrix element rows cols (t.matrix element rows cols).2 (t.matrix element rows cols).1
  | later {t : TypeTable} {m : TypeId} {r : Request} : BuiltMatrix element rows cols t m →
      t.HasAll r.components → BuiltMatrix element rows cols (r.answer t).2 m

section Built

variable {t : TypeTable} {element m : TypeId} {rows cols : UInt32}
  (h : t.BuiltMatrix element rows cols m)
include h

theorem BuiltMatrix.ordered : t.Ordered := by
  have keeps : ∀ (t : TypeTable) (s : Shape), t.Ordered → t.HasAll s.components →
      (t.intern s).2.Ordered := fun _ _ => ordered_intern
  induction h with
  | built start inTable _ => exact matrix_keeps keeps start.ordered inTable rows cols
  | later _ inTable ih => exact answer_keeps keeps ih inTable

theorem BuiltMatrix.struct : t.MatrixStruct element rows cols m := by
  induction h with
  | built _ _ free => exact matrixStruct_matrix free
  | @later t m r _ inTable ih =>
      have grows : t.Grows (r.answer t).2 :=
        answer_keeps (P := t.Grows) (fun _ s old _ => grows_intern old s) t.grows_refl inTable
      exact ih.grows grows

end Built

end TypeTable

/-! ## The shape of a matrix -/

/-- How many lanes each vector of a matrix has. -/
def MatrixFacts.vectorLength (m : MatrixFacts) : UInt32 :=
  match m.orientation with
  | .rowMajor => m.cols
  | .columnMajor => m.rows

theorem MatrixFacts.vectorCount_mul_vectorLength (m : MatrixFacts) :
    m.vectorCount.toNat * m.vectorLength.toNat = m.rows.toNat * m.cols.toNat := by
  obtain ⟨orientation, rows, cols⟩ := m
  cases orientation with
  | rowMajor => rfl
  | columnMajor => exact Nat.mul_comm _ _

theorem MatrixFacts.one_le (m : MatrixFacts) (rows : 1 ≤ m.rows) (cols : 1 ≤ m.cols) :
    1 ≤ m.vectorCount ∧ 1 ≤ m.vectorLength := by
  obtain ⟨orientation, _, _⟩ := m
  cases orientation with
  | rowMajor => exact ⟨rows, cols⟩
  | columnMajor => exact ⟨cols, rows⟩

/-! ## Lines that read the same -/

namespace Text

theorem blanks_append_inj {a b : List Char} {m n : Nat}
    (h : List.replicate m ' ' ++ ';' :: a = List.replicate n ' ' ++ ';' :: b) : a = b := by
  induction m generalizing n with
  | zero =>
      cases n with
      | zero => exact List.tail_eq_of_cons_eq h
      | succ n => exact absurd (List.head_eq_of_cons_eq h) (by decide)
  | succ m ih =>
      cases n with
      | zero => exact absurd (List.head_eq_of_cons_eq h) (by decide)
      | succ n => exact ih (List.tail_eq_of_cons_eq h)

/-- Padding does not hide where a text ends that ends in `;`. -/
theorem padRight_inj {width : Nat} {s t : String}
    (h : padRight width (s ++ ";") = padRight width (t ++ ";")) : s = t := by
  have chars := congrArg (fun s => s.toList.reverse) h
  simp only [padRight, blanks, String.toList_append, String.toList_ofList, List.reverse_append,
    List.reverse_replicate] at chars
  exact String.toList_injective (List.reverse_injective (blanks_append_inj chars))

end Text

namespace Layout

open TypeTable

theorem arraySuffix_inj {m n : Nat} (h : arraySuffix m = arraySuffix n) : m = n := by
  have opened : ∀ n : Nat, "[" ++ n.repr ++ "]" ≠ "" := by
    intro n empty
    have none := congrArg String.toList empty
    rw [String.append_assoc, String.toList_append] at none
    cases none
  by_cases hm : m = 0
  · by_cases hn : n = 0
    · rw [hm, hn]
    · rw [arraySuffix, arraySuffix, if_pos hm, if_neg hn] at h
      exact absurd h.symm (opened n)
  · by_cases hn : n = 0
    · rw [arraySuffix, arraySuffix, if_neg hm, if_pos hn] at h
      exact absurd h (opened m)
    · rw [arraySuffix, arraySuffix, if_neg hm, if_neg hn] at h
      have numerals : m.repr = n.repr :=
        (String.append_right_inj "[").mp ((String.append_left_inj "]").mp h)
      exact Text.toList_repr_inj.mp (congrArg String.toList numerals)

/-- Two leaves that differ in their sizes alone read the same only if they show one size. -/
theorem leafLine_text_iff (marker : Char) (field : FieldFacts) (place : Placement) (size : Nat)
    (type : String) {m n : Nat} :
    (leafLine field place size type (arraySuffix m)).text marker =
      (leafLine field place size type (arraySuffix n)).text marker ↔ m = n := by
  constructor
  · intro h
    have padded := (String.append_right_inj _).mp ((String.append_left_inj _).mp h)
    exact arraySuffix_inj ((String.append_right_inj _).mp (Text.padRight_inj padded))
  · rintro rfl
    rfl

/-! ## Both forms -/

/-- Without a level for the vectors, one level is taken for a matrix on its own. -/
theorem matrixCount_of_structs {matrix : MatrixFacts} (one : 1 ≤ matrix.vectorCount)
    {outer : List UInt64} (fits : elements outer < 2 ^ 64) :
    matrixCount matrix outer =
      if outer.length ≤ 1 then 0 else elements outer / matrix.vectorCount.toNat := by
  rw [matrixCount, if_neg (vectorCount_ne_zero one)]
  by_cases none : outer = []
  · rw [none]
    exact Nat.zero_div _
  · have level := List.length_pos_of_ne_nil none
    by_cases single : outer.length = 1
    · rw [if_pos single, if_pos (Nat.le_of_eq single)]
    · rw [if_neg single, if_neg (by omega), elementCount_eq none fits]

/-- The two sizes differ wherever there is an array of matrices and a matrix is more than one
vector, and wherever that array has one level. -/
theorem elementCount_eq_matrixCount_iff {matrix : MatrixFacts} (one : 1 ≤ matrix.vectorCount)
    {outer : List UInt64} (positive : ∀ length ∈ outer, 1 ≤ length)
    (fits : elements outer < 2 ^ 64) :
    elementCount outer = matrixCount matrix outer ↔
      outer = [] ∨ 2 ≤ outer.length ∧ matrix.vectorCount = 1 := by
  have some := elements_pos positive
  rw [matrixCount_of_structs one fits]
  by_cases none : outer = []
  · rw [none]
    exact iff_of_true rfl (Or.inl rfl)
  · rw [elementCount_eq none fits]
    have level := List.length_pos_of_ne_nil none
    by_cases single : outer.length ≤ 1
    · rw [if_pos single]
      refine iff_of_false (Nat.ne_of_gt some) ?_
      rintro (h | ⟨two, _⟩)
      · exact none h
      · omega
    · have two : 2 ≤ outer.length := Nat.lt_of_not_le single
      rw [if_neg single, eq_comm, Nat.div_eq_self, ← UInt32.toNat_inj]
      constructor
      · rintro (h | h)
        · exact absurd h (Nat.ne_of_gt some)
        · exact Or.inr ⟨two, h⟩
      · rintro (h | ⟨_, h⟩)
        · exact absurd h none
        · exact Or.inr h

/-- A bound on all scalars bounds the vectors and the matrices. -/
theorem fit_of_scalars_fit {matrix : MatrixFacts} (one : 1 ≤ matrix.vectorCount)
    (lane : 1 ≤ matrix.vectorLength) {n : Nat}
    (fits : n * (matrix.rows.toNat * matrix.cols.toNat) < 2 ^ 64) :
    n * matrix.vectorCount.toNat < 2 ^ 64 ∧ n < 2 ^ 64 := by
  have lanePos : 0 < matrix.vectorLength.toNat := UInt32.le_iff_toNat_le.mp lane
  have countPos : 0 < matrix.vectorCount.toNat := UInt32.le_iff_toNat_le.mp one
  rw [← matrix.vectorCount_mul_vectorLength, ← Nat.mul_assoc] at fits
  have vectors := Nat.lt_of_le_of_lt (Nat.le_mul_of_pos_right _ lanePos) fits
  exact ⟨vectors, Nat.lt_of_le_of_lt (Nat.le_mul_of_pos_right _ countPos) vectors⟩

/-- Arrays of matrix structs divide by a number that is no part of their product. -/
theorem field_of_structs {t : TypeTable} (ht : t.Ordered) {matrix : MatrixFacts}
    {element m type : TypeId} (struct : t.MatrixStruct element matrix.rows matrix.cols m)
    {outer : List UInt64} (levels : t.Levels m outer type)
    (scalar : (t.shape? element).any Shape.isScalar) {field : FieldFacts}
    (marked : field.matrix = some matrix) (facts : LayoutFacts) (place : Placement) (size : Nat) :
    Layout.field t facts type field place size =
      [leafLine field place size (matrixText matrix field.component)
        (arraySuffix (matrixCount matrix outer))] := by
  have noStruct : t.isStruct (matrixComponent t m) = false := by
    rw [struct.component]
    exact not_isStruct_of_scalar scalar
  rw [field_of_leaf facts (formOf_matrix ht levels struct.flat marked noStruct),
    typeText_matrix marked]

/-- A field of matrices in its two forms.  As arrays of vectors it shows the number of
matrices; as structs it shows nothing for one level, and otherwise that number divided by the
number of vectors.  The two lines read the same only where this makes no difference. -/
theorem matrix_forms_agree_iff {t : TypeTable} {matrix : MatrixFacts} {element m : TypeId}
    (struct : t.BuiltMatrix element matrix.rows matrix.cols m)
    (scalar : (t.shape? element).any Shape.isScalar) (rows : 1 ≤ matrix.rows)
    (cols : 1 ≤ matrix.cols) {vector : TypeId}
    (lanes : t.shape? vector = some (.vector element matrix.vectorLength))
    {outer : List UInt64} (positive : ∀ length ∈ outer, 1 ≤ length)
    (fits : elements outer * (matrix.rows.toNat * matrix.cols.toNat) < 2 ^ 64)
    {asVectors asStructs : TypeId}
    (vectors : t.Levels vector (outer ++ [matrix.vectorCount.toUInt64]) asVectors)
    (structs : t.Levels m outer asStructs) (facts : LayoutFacts) (field : FieldFacts)
    (marked : field.matrix = some matrix) (place : Placement) (size : Nat) (marker : Char) :
    Layout.field t facts asVectors field place size =
        [leafLine field place size (matrixText matrix field.component) (sizeText outer)] ∧
    Layout.field t facts asStructs field place size =
        [leafLine field place size (matrixText matrix field.component) (arraySuffix
          (if outer.length ≤ 1 then 0 else elements outer / matrix.vectorCount.toNat))] ∧
    ((Layout.field t facts asVectors field place size).map (LayoutLine.text marker) =
        (Layout.field t facts asStructs field place size).map (LayoutLine.text marker) ↔
      outer = [] ∨ 2 ≤ outer.length ∧ matrix.vectorCount = 1) := by
  have ordered := struct.ordered
  obtain ⟨one, lane⟩ := matrix.one_le rows cols
  obtain ⟨vectorsFit, matricesFit⟩ := fit_of_scalars_fit one lane fits
  have left : Layout.field t facts asVectors field place size =
      [leafLine field place size (matrixText matrix field.component) (sizeText outer)] := by
    have each : matrix.vectorCount.toUInt64.toNat = matrix.vectorCount.toNat :=
      UInt32.toNat_toUInt64 _
    have element : t.vectorElement? vector = some element := by
      rw [vectorElement?, lanes]
      rfl
    have total : elements (outer ++ [matrix.vectorCount.toUInt64]) < 2 ^ 64 := by
      rw [elements_concat, each]
      exact vectorsFit
    exact field_of_vectors ordered vectors element scalar positive total marked one each facts
      place size
  have right := field_of_structs ordered struct.struct structs scalar marked facts place size
  refine ⟨left, ?_, ?_⟩
  · rw [right, matrixCount_of_structs one matricesFit]
  · rw [left, right, ← arraySuffix_elementCount positive matricesFit, List.map_singleton,
      List.map_singleton, List.singleton_inj, leafLine_text_iff,
      elementCount_eq_matrixCount_iff one positive matricesFit]

/-- A matrix struct, and three matrices in either form. -/
def bothForms : List Request :=
  [.shape .float, .matrix 0 4 4, .shape (.array 3 3), .shape (.array 2 3)]

def threeMatrices : FieldFacts :=
  { name := "m", component := .f32, matrix := some ⟨.columnMajor, 4, 4⟩ }

theorem matrix_forms_agree_iff_bothForms :
    Layout.field (TypeTable.run {} bothForms) {} 5 threeMatrices ⟨0, 3, 50⟩ 0 =
        [.leaf 3 50 "column_major float4x4 m[3];" 0 0] ∧
    Layout.field (TypeTable.run {} bothForms) {} 4 threeMatrices ⟨0, 3, 50⟩ 0 =
        [.leaf 3 50 "column_major float4x4 m;" 0 0] ∧
    (Layout.field (TypeTable.run {} bothForms) {} 5 threeMatrices ⟨0, 3, 50⟩ 0).map
        (LayoutLine.text ';') ≠
      (Layout.field (TypeTable.run {} bothForms) {} 4 threeMatrices ⟨0, 3, 50⟩ 0).map
        (LayoutLine.text ';') := by
  have struct : (TypeTable.run {} bothForms).BuiltMatrix 0 4 4 3 := by
    have scalars : TypeTable.Built (TypeTable.run {} [.shape .float]) :=
      ⟨[.shape .float], by decide +kernel, rfl⟩
    exact .later (.later (.built scalars (by decide) (by decide +kernel)) (by decide +kernel))
      (by decide +kernel)
  have lanes : (TypeTable.run {} bothForms).shape? 1 = some (.vector 0 4) := by decide +kernel
  have inner : (TypeTable.run {} bothForms).shape? 2 = some (.array 1 4) := by decide +kernel
  have vectors : (TypeTable.run {} bothForms).shape? 5 = some (.array 2 3) := by decide +kernel
  have structs : (TypeTable.run {} bothForms).shape? 4 = some (.array 3 3) := by decide +kernel
  have positive : ∀ length ∈ ([3] : List UInt64), 1 ≤ length := by
    intro length h
    rw [List.mem_singleton.mp h]
    decide
  obtain ⟨left, right, same⟩ := matrix_forms_agree_iff struct (by decide +kernel) (by decide)
    (by decide) lanes positive (by decide) (.array vectors (.array inner .none))
    (.array structs .none) {} threeMatrices rfl ⟨0, 3, 50⟩ 0 ';'
  refine ⟨?_, ?_, ?_⟩
  · rw [left]
    decide +kernel
  · rw [right]
    decide +kernel
  · rw [ne_eq, same]
    decide

end Layout

end ShaderReport
