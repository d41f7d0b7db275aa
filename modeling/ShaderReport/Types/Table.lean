/-
# `TypeTable` — every type of a module, once

Types are interned: asking for a type that is already there gives its place, and
asking for a new one appends it.  A struct with a name is the struct of that
name, whatever fields a later request lists.

A type is made from types that were there before it, so a value can be computed
for every type of the table in one pass from the oldest on (`values`).  What the
pass finds for a type depends on the types up to it and on nothing appended
later (`fold_append`), and it obeys the equation one would write as a recursion
(`fold_eq`).
-/
import ShaderReport.Types.Shape

namespace ShaderReport

/-- The shapes of a module's types, oldest first. -/
structure TypeTable where
  shapes : List Shape := []
deriving DecidableEq, Inhabited

namespace TypeTable

def size (t : TypeTable) : Nat := t.shapes.length

def shape? (t : TypeTable) (id : TypeId) : Option Shape := t.shapes[id]?

/-- The place of a type, if it is there. -/
def find? (t : TypeTable) (s : Shape) : Option TypeId := t.shapes.findIdx? s.same

def structByName? (t : TypeTable) (name : String) : Option TypeId :=
  t.shapes.findIdx? (·.structName? == some name)

/-- The place of a type, which is appended unless it is there already. -/
def intern (t : TypeTable) (s : Shape) : TypeId × TypeTable :=
  match t.find? s with
  | some id => (id, t)
  | none => (t.size, ⟨t.shapes ++ [s]⟩)

/-- The named structs, oldest first. -/
def namedStructs (t : TypeTable) : List TypeId :=
  (t.shapes.zipIdx.filter fun (s, _) => s.structName?.isSome).map (·.2)

/-! ## Questions about the type at a place -/

def isArray (t : TypeTable) (id : TypeId) : Bool := (t.shape? id).any Shape.isArray

def isVector (t : TypeTable) (id : TypeId) : Bool := (t.shape? id).any Shape.isVector

def isStruct (t : TypeTable) (id : TypeId) : Bool := (t.shape? id).any Shape.isStruct

def isPointer (t : TypeTable) (id : TypeId) : Bool := (t.shape? id).any Shape.isPointer

def arrayElement? (t : TypeTable) (id : TypeId) : Option TypeId :=
  (t.shape? id).bind Shape.arrayElement?

def arrayLength? (t : TypeTable) (id : TypeId) : Option UInt64 :=
  (t.shape? id).bind Shape.arrayLength?

def vectorElement? (t : TypeTable) (id : TypeId) : Option TypeId :=
  (t.shape? id).bind Shape.vectorElement?

def vectorLength? (t : TypeTable) (id : TypeId) : Option UInt32 :=
  (t.shape? id).bind Shape.vectorLength?

def pointee? (t : TypeTable) (id : TypeId) : Option TypeId :=
  (t.shape? id).bind Shape.pointee?

def structName? (t : TypeTable) (id : TypeId) : Option String :=
  (t.shape? id).bind Shape.structName?

def structFields (t : TypeTable) (id : TypeId) : List TypeId :=
  ((t.shape? id).map Shape.structFields).getD []

/-! ## Values computed from the oldest type on -/

section Fold

variable {α : Type} [Inhabited α]

/-- Adds the value of one more type: from its place, its shape and the values of the
types before it. -/
def addValue (step : TypeId → Shape → (TypeId → α) → α) (below : Array α) (s : Shape) : Array α :=
  below.push (step below.size s (below.getD · default))

/-- The value of every type, oldest first. -/
def values (step : TypeId → Shape → (TypeId → α) → α) (shapes : List Shape) : Array α :=
  shapes.foldl (addValue step) #[]

/-- The value of the type at a place; the pass ends there. -/
def fold (t : TypeTable) (step : TypeId → Shape → (TypeId → α) → α) (id : TypeId) : α :=
  (values step (t.shapes.take (id + 1))).getD id default

variable (step : TypeId → Shape → (TypeId → α) → α)

/-- The pass keeps what it has found and adds one value per shape. -/
theorem foldl_addValue (shapes : List Shape) (below : Array α) :
    ∃ later : Array α, later.size = shapes.length ∧
      shapes.foldl (addValue step) below = below ++ later := by
  induction shapes generalizing below with
  | nil => exact ⟨#[], rfl, by simp⟩
  | cons s shapes ih =>
    obtain ⟨later, hl, e⟩ := ih (addValue step below s)
    refine ⟨#[step below.size s (below.getD · default)] ++ later, ?_, ?_⟩
    · rw [Array.size_append, hl]
      simp [Nat.add_comm]
    · rw [List.foldl_cons, e, addValue, Array.push_eq_append, Array.append_assoc]

@[simp] theorem size_values (shapes : List Shape) :
    (values step shapes).size = shapes.length := by
  obtain ⟨later, hl, e⟩ := foldl_addValue step shapes #[]
  rw [values, e, Array.empty_append, hl]

/-- Types appended later leave the values of the earlier ones in front. -/
theorem values_append (shapes more : List Shape) :
    ∃ later, values step (shapes ++ more) = values step shapes ++ later := by
  obtain ⟨later, _, e⟩ := foldl_addValue step more (values step shapes)
  exact ⟨later, by rw [← e, values, List.foldl_append]; rfl⟩

theorem values_concat (shapes : List Shape) (s : Shape) :
    values step (shapes ++ [s]) = addValue step (values step shapes) s := by
  simp [values, List.foldl_append]

/-- What is found for a type does not depend on types appended later. -/
theorem fold_append (shapes more : List Shape) {id : TypeId} (h : id < shapes.length) :
    fold ⟨shapes ++ more⟩ step id = fold ⟨shapes⟩ step id := by
  simp only [fold, List.take_append_of_le_length (Nat.succ_le_of_lt h)]

/-- A place outside the table has the default value. -/
theorem fold_of_size_le (t : TypeTable) {id : TypeId} (h : t.size ≤ id) :
    t.fold step id = default := by
  have hs : (values step (t.shapes.take (id + 1))).size ≤ id := by
    rw [size_values]
    exact Nat.le_trans (List.length_take_le' ..) h
  rw [fold, Array.getD_eq_getD_getElem?, Array.getElem?_eq_none hs, Option.getD_none]

/-- A pass that goes further finds the same. -/
theorem getD_values_take (t : TypeTable) {c n : Nat} (h : c < n) :
    (values step (t.shapes.take n)).getD c default = t.fold step c := by
  have split : t.shapes.take n =
      t.shapes.take (c + 1) ++ (t.shapes.drop (c + 1)).take (n - (c + 1)) := by
    rw [← List.take_add]
    congr 1
    omega
  rcases Nat.lt_or_ge c t.shapes.length with hc | hc
  · obtain ⟨later, e⟩ := values_append step (t.shapes.take (c + 1))
      ((t.shapes.drop (c + 1)).take (n - (c + 1)))
    have hl : c < (values step (t.shapes.take (c + 1))).size := by
      rw [size_values, List.length_take]
      omega
    rw [split, e, fold, Array.getD_eq_getD_getElem?, Array.getElem?_append_left hl,
      Array.getD_eq_getD_getElem?]
  · have hs : (values step (t.shapes.take n)).size ≤ c := by
      rw [size_values]
      exact Nat.le_trans (List.length_take_le' ..) hc
    rw [fold_of_size_le step t hc, Array.getD_eq_getD_getElem?, Array.getElem?_eq_none hs,
      Option.getD_none]

/-- The value of a type in terms of the values of the types before it. -/
theorem fold_eq (t : TypeTable) {id : TypeId} {s : Shape} (h : t.shape? id = some s) :
    t.fold step id = step id s fun c => if c < id then t.fold step c else default := by
  obtain ⟨hlt, hs⟩ := List.getElem?_eq_some_iff.mp h
  have hv : (values step (t.shapes.take id)).size = id := by
    rw [size_values, List.length_take_of_le (Nat.le_of_lt hlt)]
  have before : ((values step (t.shapes.take id)).getD · default) =
      fun c => if c < id then t.fold step c else default := by
    funext c
    by_cases hc : c < id
    · rw [if_pos hc, getD_values_take step t hc]
    · rw [if_neg hc, Array.getD_eq_getD_getElem?,
        Array.getElem?_eq_none (by omega), Option.getD_none]
  rw [fold, ← List.take_append_getElem hlt, hs, values_concat, addValue, hv, before,
    Array.getD_eq_getD_getElem?, Array.getElem?_push, hv, if_pos rfl, Option.getD_some]

end Fold

/-! ## Array levels -/

/-- A type seen through its array levels. -/
structure Spine where
  /-- The lengths of the levels, outermost first. -/
  lengths : List UInt64
  /-- What the innermost level is an array of. -/
  element : TypeId
deriving DecidableEq, Inhabited

/-- The array levels of a type; a type that is no array has none. -/
def spine (t : TypeTable) : TypeId → Spine :=
  t.fold fun id s below =>
    match s with
    | .array element length => ⟨length :: (below element).lengths, (below element).element⟩
    | _ => ⟨[], id⟩

/-- A type without its array levels. -/
def stripArrays (t : TypeTable) (id : TypeId) : TypeId := (t.spine id).element

end TypeTable

end ShaderReport
