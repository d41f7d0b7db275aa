/-
# The layout of a struct as a recursion

`Layout.block` is computed for a whole table in one pass.  In a table whose
components stand before the types made from them, the pass agrees with the
recursion it stands for (`nesting`, `block_eq`): a struct's layout is made from
the layouts of the structs its fields show as, and these have smaller places
(`le_of_formOf_block`).

What a field shows as is decided in two ways.  `formOf` follows the array levels
and takes a matrix apart.  `fieldStruct?` only asks whether a struct stands
there.  The two agree as soon as vectors have scalar lanes (`struct?_formOf`):
the component that `formOf` takes out of a vector or of a matrix is then no
struct, so it makes no block of its own.
-/
import Mathlib.Data.List.Basic
import ShaderReport.Layout.Block
import ShaderReport.Proofs.Types.Descent

namespace ShaderReport.Layout

variable {t : TypeTable} (facts : LayoutFacts)

/-! ## What a field shows as -/

/-- A type, if it is a struct that does not bear a matrix name. -/
def plainStruct? (t : TypeTable) (id : TypeId) : Option TypeId :=
  if t.isStruct id ∧ ¬ t.isMatrix id then some id else none

/-- The struct a field shows as: its type, unless it is marked as a matrix, or else what
its array levels hold, unless that bears a matrix name.  Any other field is a leaf. -/
def fieldStruct? (t : TypeTable) (type : TypeId) (field : FieldFacts) : Option TypeId :=
  if t.isStruct type ∧ field.matrix = none then some type
  else plainStruct? t (t.stripArrays type)

/-- The struct of a block. -/
def Form.struct? : Form → Option TypeId
  | .leaf _ => none
  | .block struct _ => some struct

/-- The array size shown behind a name, zero for none. -/
def Form.count : Form → Nat
  | .leaf count | .block _ count => count

theorem matrixComponent_le (ht : t.Ordered) (id : TypeId) : matrixComponent t id ≤ id := by
  unfold matrixComponent
  cases hv : t.vectorElement? id with
  | some lane => exact Nat.le_of_lt (TypeTable.vectorElement?_lt ht hv)
  | none =>
      cases hm : t.matrixElement? id with
      | some element => exact Nat.le_of_lt (TypeTable.matrixElement?_lt ht hm)
      | none => exact Nat.le_refl _

/-- A block is never newer than the field's type. -/
theorem le_of_formOf_block (ht : t.Ordered) {type s : TypeId} {field : FieldFacts} {count : Nat}
    (h : type < t.size) (hf : formOf t type field = .block s count) : s ≤ type := by
  have strip := (TypeTable.stripArrays_spec ht h).1
  unfold formOf at hf
  split at hf
  · cases hf
    exact Nat.le_refl _
  · cases hm : field.matrix with
    | none =>
        simp only [hm] at hf
        split at hf
        · cases hf
          exact strip
        · cases hf
    | some matrix =>
        simp only [hm] at hf
        split at hf
        · cases hf
          exact Nat.le_trans (matrixComponent_le ht _) strip
        · cases hf

/-- The struct a field shows as is never newer than the field's type. -/
theorem le_of_fieldStruct? (ht : t.Ordered) {type s : TypeId} {field : FieldFacts}
    (h : type < t.size) (hf : fieldStruct? t type field = some s) : s ≤ type := by
  unfold fieldStruct? at hf
  split at hf
  · cases hf
    exact Nat.le_refl _
  · unfold plainStruct? at hf
    split at hf
    · cases hf
      exact (TypeTable.stripArrays_spec ht h).1
    · cases hf

/-- With scalar lanes, taking a component out of a type neither hides a struct nor
uncovers one. -/
theorem plainStruct?_matrixComponent (hv : t.ScalarVectors) (id : TypeId) :
    plainStruct? t (matrixComponent t id) = plainStruct? t id := by
  unfold matrixComponent
  cases hlane : t.vectorElement? id with
  | some lane =>
      -- a vector is no struct, and neither is its lane
      have hid : t.isStruct id = false := by
        obtain ⟨s, hs, he⟩ := Option.bind_eq_some_iff.mp hlane
        cases s with
        | vector _ _ => simp [TypeTable.isStruct, hs, Shape.isStruct]
        | _ => cases he
      simp [plainStruct?, TypeTable.not_isStruct_vectorElement? hv hlane, hid]
  | none =>
      cases hm : t.matrixElement? id with
      | none => rfl
      | some element =>
          unfold TypeTable.matrixElement? at hm
          split at hm
          · rename_i named
            split at hm
            · obtain ⟨row, _, hrow⟩ := Option.bind_eq_some_iff.mp hm
              simp [plainStruct?, TypeTable.not_isStruct_vectorElement? hv hrow, named]
            · cases hm
          · cases hm

/-- With scalar lanes, a field makes a block exactly where a struct stands. -/
theorem struct?_formOf (hv : t.ScalarVectors) (type : TypeId) (field : FieldFacts) :
    (formOf t type field).struct? = fieldStruct? t type field := by
  have element : ∀ (id : TypeId) (count : Nat),
      (if t.isStruct id && !t.isMatrix id then Form.block id count else .leaf count).struct? =
        plainStruct? t id := by
    intro id count
    cases hs : t.isStruct id <;> cases hm : t.isMatrix id <;>
      simp [plainStruct?, Form.struct?, hs, hm]
  unfold formOf fieldStruct?
  cases hm : field.matrix with
  | none =>
      cases hs : t.isStruct type with
      | true => simp [Form.struct?]
      | false =>
          rw [if_neg (by simp), if_neg (by simp)]
          exact element _ _
  | some matrix =>
      rw [if_neg (by simp), if_neg (by simp)]
      exact (element _ _).trans (plainStruct?_matrixComponent hv _)

/-! ## The recursion -/

theorem fieldWith_congr {type : TypeId} {field : FieldFacts} {block block' : TypeId → BlockPrinter}
    (agree : ∀ s ∈ (formOf t type field).struct?.toList, block s = block' s) (place : Placement)
    (size : Nat) :
    fieldWith t block type field place size = fieldWith t block' type field place size := by
  unfold fieldWith
  cases hf : formOf t type field with
  | leaf count => rfl
  | block s count =>
      rw [hf] at agree
      simp only [agree s List.mem_cons_self]

/-- The structs that a struct's fields show as, if enough is known of it. -/
def inside (t : TypeTable) (facts : LayoutFacts) (type : TypeId) : List TypeId :=
  match usableFacts? t facts type with
  | none => []
  | some known =>
    ((t.structFields type).zip known.fields).flatMap fun (type, field) =>
      (formOf t type field).struct?.toList

/-- A struct calls for the structs that its fields show as.  The sizes and array levels it
needs besides have recursions of their own. -/
def nesting (t : TypeTable) (facts : LayoutFacts) : Recursion BlockPrinter where
  calls type _ := inside t facts type
  step type _ below := blockWith t facts below type
  step_congr := by
    intro type _ below below' agree
    funext label place size
    unfold inside at agree
    unfold blockWith
    cases hk : usableFacts? t facts type with
    | none => rfl
    | some known =>
        rw [hk] at agree
        have fields : ∀ x ∈ (t.structFields type).zip known.fields,
            fieldWith t below x.1 x.2 place.inner 0 =
              fieldWith t below' x.1 x.2 place.inner 0 := by
          intro x hx
          refine fieldWith_congr ?_ _ _
          intro s hs
          exact agree s (List.mem_flatMap.mpr ⟨x, hx, hs⟩)
        simp only [List.flatMap_congr fields]

theorem le_of_mem_struct? (ht : t.Ordered) {type s : TypeId} (h : type < t.size)
    {field : FieldFacts} (hs : s ∈ (formOf t type field).struct?.toList) : s ≤ type := by
  cases hf : formOf t type field with
  | leaf count =>
      rw [hf] at hs
      cases hs
  | block s' count =>
      rw [hf] at hs
      obtain rfl : s = s' := List.mem_singleton.mp hs
      exact le_of_formOf_block ht h hf

theorem nesting_descends (ht : t.Ordered) : (nesting t facts).Descends t := by
  intro id shape hs c hc
  have hc : c ∈ inside t facts id := hc
  unfold inside at hc
  split at hc
  · cases hc
  · obtain ⟨x, hx, hc⟩ := List.mem_flatMap.mp hc
    have older : x.1 < id := TypeTable.structFields_lt ht (List.of_mem_zip hx).1
    have found : x.1 < t.size := Nat.lt_trans older (TypeTable.lt_size_of_shape? hs)
    exact Nat.lt_of_le_of_lt (le_of_mem_struct? ht found hc) older

/-- A struct's layout in terms of the layouts of the structs inside it. -/
theorem block_eq (ht : t.Ordered) {id : TypeId} (h : id < t.size) :
    block t facts id = blockWith t facts (block t facts) id := by
  obtain ⟨s, hs⟩ := TypeTable.exists_shape? h
  exact Recursion.fold_eq_step (nesting_descends facts ht) hs

/-- A field calls for the struct that it shows as, if it shows as one. -/
def field? (t : TypeTable) (facts : LayoutFacts) (depth : Nat) (type : TypeId)
    (field : FieldFacts) (place : Placement) (size : Nat) : Option (List LayoutLine) :=
  answered ((nesting t facts).run? t depth) (formOf t type field).struct?.toList fun block =>
    fieldWith t block type field place size

section Ends

variable (ht : t.Ordered) {id depth : Nat} (inTable : id < t.size) (deep : id < depth)
include ht inTable deep

theorem nesting_run? : (nesting t facts).run? t depth id = some (block t facts id) :=
  Recursion.run?_eq (nesting_descends facts ht) inTable deep

theorem field?_eq (field : FieldFacts) (place : Placement) (size : Nat) :
    field? t facts depth id field place size = some (Layout.field t facts id field place size) := by
  refine answered_eq ?_ fun _ agree => fieldWith_congr agree place size
  intro s hs
  have le : s ≤ id := le_of_mem_struct? ht inTable hs
  exact nesting_run? facts ht (Nat.lt_of_le_of_lt le inTable) (Nat.lt_of_le_of_lt le deep)

end Ends

end ShaderReport.Layout
