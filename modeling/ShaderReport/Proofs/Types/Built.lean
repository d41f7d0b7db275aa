/-
# `Built` — the tables that requests build

A table is only ever grown by requests: for one shape, or for a matrix, which
interns a row vector, an array of rows and a struct.  A request may name types
that are in the table when its turn comes, and no others.  `Built t` says that
`t` comes out of the empty table by such a run.

Every fact about built tables is proved in one way (`Built.invariant`): it holds
of the empty table, and interning one admissible shape keeps it.  A matrix
request needs no case of its own, because it is three admissible shapes in a
row.

The first such fact is `Ordered`: the components of a type stand before it.
Under it the one-pass values of a table obey the plain recursion equations, here
stated for `spine`, and "smaller place" is a measure for every recursion over
types.
-/
import ShaderReport.Types.Matrix

namespace ShaderReport

/-- What can be asked of a table. -/
inductive Request where
  | shape (s : Shape)
  | matrix (element : TypeId) (rows cols : UInt32)
deriving DecidableEq

namespace Request

/-- The types a request names. -/
def components : Request → List TypeId
  | .shape s => s.components
  | .matrix element _ _ => [element]

/-- The place answered, and the table afterwards. -/
def answer (t : TypeTable) : Request → TypeId × TypeTable
  | .shape s => t.intern s
  | .matrix element rows cols => t.matrix element rows cols

end Request

namespace TypeTable

/-- Whether all the given types are in the table. -/
def HasAll (t : TypeTable) (ids : List TypeId) : Prop := ∀ c ∈ ids, c < t.size

instance (t : TypeTable) (ids : List TypeId) : Decidable (t.HasAll ids) :=
  inferInstanceAs (Decidable (∀ c ∈ ids, c < t.size))

/-- The table after a run of requests. -/
def run (t : TypeTable) : List Request → TypeTable
  | [] => t
  | r :: rest => run (r.answer t).2 rest

/-- A run in which every request names only types that are there. -/
def Admits (t : TypeTable) : List Request → Prop
  | [] => True
  | r :: rest => t.HasAll r.components ∧ (r.answer t).2.Admits rest

instance decAdmits : (t : TypeTable) → (rs : List Request) → Decidable (t.Admits rs)
  | _, [] => .isTrue trivial
  | t, r :: rest =>
      have := decAdmits (r.answer t).2 rest
      inferInstanceAs (Decidable (t.HasAll r.components ∧ (r.answer t).2.Admits rest))

/-- A table that an admissible run makes out of the empty one. -/
def Built (t : TypeTable) : Prop := ∃ rs, Admits {} rs ∧ run {} rs = t

/-! ## Interning one shape -/

/-- Interning finds the type, or appends it. -/
theorem intern_cases (t : TypeTable) (s : Shape) :
    (∃ id, t.find? s = some id ∧ t.intern s = (id, t)) ∨
      (t.find? s = none ∧ t.intern s = (t.size, ⟨t.shapes ++ [s]⟩)) := by
  cases h : t.find? s with
  | none => exact Or.inr ⟨rfl, by simp only [intern, h]⟩
  | some id => exact Or.inl ⟨id, rfl, by simp only [intern, h]⟩

theorem lt_size_of_find? {t : TypeTable} {s : Shape} {id : TypeId}
    (h : t.find? s = some id) : id < t.size := by
  obtain ⟨hlt, _⟩ := List.findIdx?_eq_some_iff_getElem.mp h
  exact hlt

theorem lt_size_of_shape? {t : TypeTable} {s : Shape} {id : TypeId}
    (h : t.shape? id = some s) : id < t.size :=
  (List.getElem?_eq_some_iff.mp h).1

theorem lt_size_of_isStruct {t : TypeTable} {id : TypeId} (h : t.isStruct id) : id < t.size := by
  cases hs : t.shape? id with
  | none => simp [isStruct, hs] at h
  | some s => exact lt_size_of_shape? hs

theorem exists_shape? {t : TypeTable} {id : TypeId} (h : id < t.size) :
    ∃ s, t.shape? id = some s :=
  ⟨t.shapes[id], List.getElem?_eq_getElem h⟩

/-- The place answered is a place of the table afterwards. -/
theorem intern_fst_lt (t : TypeTable) (s : Shape) : (t.intern s).1 < (t.intern s).2.size := by
  rcases t.intern_cases s with ⟨id, hf, e⟩ | ⟨_, e⟩
  · rw [e]
    exact lt_size_of_find? hf
  · rw [e]
    simp [size]

/-- What stands in the table after interning: what stood there, or the new shape at the end. -/
theorem shape?_intern_cases {t : TypeTable} {s : Shape} {id : TypeId} {found : Shape}
    (h : (t.intern s).2.shape? id = some found) :
    t.shape? id = some found ∨ id = t.size ∧ found = s := by
  rcases t.intern_cases s with ⟨_, _, e⟩ | ⟨_, e⟩
  · rw [e] at h
    exact Or.inl h
  · rw [e, shape?, List.getElem?_append] at h
    by_cases hlt : id < t.shapes.length
    · rw [if_pos hlt] at h
      exact Or.inl h
    · rw [if_neg hlt] at h
      obtain ⟨hd, rfl⟩ := List.getElem?_eq_some_iff.mp h
      have hz : id - t.shapes.length = 0 := Nat.lt_one_iff.mp hd
      have he : id = t.shapes.length :=
        Nat.le_antisymm (Nat.sub_eq_zero_iff_le.mp hz) (Nat.le_of_not_lt hlt)
      refine Or.inr ⟨he, ?_⟩
      simp [hz]

/-! ## What every run keeps -/

section Run

variable {P : TypeTable → Prop}
  (keeps : ∀ t s, P t → t.HasAll s.components → P (t.intern s).2)

include keeps in
/-- A matrix request is three admissible shapes. -/
theorem matrix_keeps {t : TypeTable} (ht : P t) {element : TypeId} (he : element < t.size)
    (rows cols : UInt32) : P (t.matrix element rows cols).2 := by
  -- the table after each of the three, innermost type first
  let row := t.intern (.vector element cols)
  let storage := row.2.intern (.array row.1 (.ofNat rows.toNat))
  have hrow : P row.2 := by
    refine keeps t _ ht ?_
    intro c hc
    rw [List.mem_singleton.mp hc]
    exact he
  have hstorage : P storage.2 := by
    refine keeps row.2 _ hrow ?_
    intro c hc
    rw [List.mem_singleton.mp hc]
    exact t.intern_fst_lt _
  refine keeps storage.2 (.struct _ [storage.1]) hstorage ?_
  intro c hc
  rw [List.mem_singleton.mp hc]
  exact row.2.intern_fst_lt _

include keeps in
theorem answer_keeps {t : TypeTable} (ht : P t) {r : Request} (hr : t.HasAll r.components) :
    P (r.answer t).2 := by
  cases r with
  | shape s => exact keeps t s ht hr
  | matrix element rows cols =>
      exact matrix_keeps keeps ht (hr element List.mem_cons_self) rows cols

include keeps in
theorem run_keeps {t : TypeTable} (ht : P t) {rs : List Request} (hrs : t.Admits rs) :
    P (t.run rs) := by
  induction rs generalizing t with
  | nil => exact ht
  | cons r rest ih => exact ih (answer_keeps keeps ht hrs.1) hrs.2

include keeps in
/-- What holds of the empty table and survives every admissible shape holds of every
built table. -/
theorem Built.invariant (start : P {}) {t : TypeTable} (ht : t.Built) : P t := by
  obtain ⟨rs, hrs, rfl⟩ := ht
  exact run_keeps keeps start hrs

end Run

/-! ## Components stand before the types made from them -/

/-- Every component of a type has a smaller place. -/
def Ordered (t : TypeTable) : Prop :=
  ∀ id s, t.shape? id = some s → ∀ c ∈ s.components, c < id

theorem ordered_intern {t : TypeTable} {s : Shape} (ht : t.Ordered)
    (hs : t.HasAll s.components) : (t.intern s).2.Ordered := by
  intro id found h c hc
  rcases shape?_intern_cases h with old | ⟨rfl, rfl⟩
  · exact ht id found old c hc
  · exact hs c hc

theorem Built.ordered {t : TypeTable} (ht : t.Built) : t.Ordered := by
  refine ht.invariant (fun _ _ => ordered_intern) ?_
  intro id s h
  simp [shape?] at h

section Components

variable {t : TypeTable} (ht : t.Ordered)
include ht

theorem arrayElement?_lt {id element : TypeId} (h : t.arrayElement? id = some element) :
    element < id := by
  obtain ⟨s, hs, he⟩ := Option.bind_eq_some_iff.mp h
  cases s with
  | array e _ =>
      cases he
      exact ht id _ hs element List.mem_cons_self
  | _ => cases he

theorem vectorElement?_lt {id element : TypeId} (h : t.vectorElement? id = some element) :
    element < id := by
  obtain ⟨s, hs, he⟩ := Option.bind_eq_some_iff.mp h
  cases s with
  | vector e _ =>
      cases he
      exact ht id _ hs element List.mem_cons_self
  | _ => cases he

theorem structFields_lt {id c : TypeId} (h : c ∈ t.structFields id) : c < id := by
  cases hs : t.shape? id with
  | none => simp [structFields, hs] at h
  | some s =>
      cases s with
      | struct name fields =>
          rw [structFields, hs] at h
          exact ht id _ hs c h
      | _ => simp [structFields, hs, Shape.structFields] at h

theorem matrixElement?_lt {id element : TypeId} (h : t.matrixElement? id = some element) :
    element < id := by
  unfold matrixElement? at h
  split at h
  · split at h
    · rename_i storage hf
      obtain ⟨row, hrow, hv⟩ := Option.bind_eq_some_iff.mp h
      have hs : storage < id := structFields_lt ht (hf ▸ List.mem_cons_self)
      exact Nat.lt_trans (vectorElement?_lt ht hv) (Nat.lt_trans (arrayElement?_lt ht hrow) hs)
    · cases h
  · cases h

end Components

/-- A value that only depends on the values of smaller places obeys its recursion. -/
theorem fold_eq_of_congr {α : Type} [Inhabited α] {step : TypeId → Shape → (TypeId → α) → α}
    {t : TypeTable} {id : TypeId} {s : Shape} (h : t.shape? id = some s)
    (congr : ∀ below : TypeId → α, (∀ c < id, below c = t.fold step c) →
      step id s below = step id s (t.fold step)) :
    t.fold step id = step id s (t.fold step) := by
  rw [fold_eq step t h]
  refine congr _ ?_
  intro c hc
  rw [if_pos hc]

/-- A value that only depends on the values of the components obeys its recursion in every
ordered table. -/
theorem fold_eq_of_components {α : Type} [Inhabited α] {step : TypeId → Shape → (TypeId → α) → α}
    {t : TypeTable} (ht : t.Ordered) {id : TypeId} {s : Shape} (h : t.shape? id = some s)
    (congr : ∀ {below below' : TypeId → α}, (∀ c ∈ s.components, below c = below' c) →
      step id s below = step id s below') :
    t.fold step id = step id s (t.fold step) := by
  refine fold_eq_of_congr h ?_
  intro below agree
  exact congr fun c hc => agree c (ht id s h c hc)

/-! ## Array levels of an ordered table -/

section Spine

variable {t : TypeTable} (ht : t.Ordered)
include ht

theorem spine_array {id element : TypeId} {length : UInt64}
    (h : t.shape? id = some (.array element length)) :
    t.spine id = ⟨length :: (t.spine element).lengths, (t.spine element).element⟩ := by
  have smaller : element < id := ht id _ h element List.mem_cons_self
  refine fold_eq_of_congr h ?_
  intro below agree
  simp only [agree element smaller]

omit ht in
theorem spine_of_not_array {id : TypeId} {s : Shape} (h : t.shape? id = some s)
    (hs : s.isArray = false) : t.spine id = ⟨[], id⟩ := by
  rw [spine, fold_eq _ _ h]
  cases s with
  | array element length => cases hs
  | _ => rfl

/-- Below the array levels of a type stands a type that is no array, and that is not
newer than the type itself. -/
theorem stripArrays_spec {id : TypeId} (h : id < t.size) :
    t.stripArrays id ≤ id ∧ ∃ s, t.shape? (t.stripArrays id) = some s ∧ s.isArray = false := by
  induction id using Nat.strongRecOn with
  | ind id ih =>
    obtain ⟨s, hs⟩ := exists_shape? h
    cases ha : s.isArray with
    | false =>
        rw [stripArrays, spine_of_not_array hs ha]
        exact ⟨Nat.le_refl _, s, hs, ha⟩
    | true =>
        cases s with
        | array element length =>
            have below : element < id := ht id _ hs element List.mem_cons_self
            obtain ⟨hle, found⟩ := ih element below (Nat.lt_trans below h)
            rw [stripArrays, spine_array ht hs]
            exact ⟨Nat.le_trans hle (Nat.le_of_lt below), found⟩
        | _ => cases ha

end Spine

end TypeTable

/-! ## Vectors of scalars -/

/-- A type that can be one lane of a vector. -/
def Shape.isScalar : Shape → Bool
  | .integer _ | .half | .float | .double | .pointer .. => true
  | _ => false

/-- A table whose vectors all have scalar lanes. -/
def TypeTable.ScalarVectors (t : TypeTable) : Prop :=
  ∀ s ∈ t.shapes, ∀ element ∈ s.vectorElement?, (t.shape? element).any Shape.isScalar

instance (t : TypeTable) : Decidable t.ScalarVectors :=
  inferInstanceAs (Decidable (∀ s ∈ t.shapes, ∀ element ∈ s.vectorElement?, _))

theorem TypeTable.not_isStruct_vectorElement? {t : TypeTable} (ht : t.ScalarVectors)
    {id element : TypeId} (h : t.vectorElement? id = some element) :
    t.isStruct element = false := by
  obtain ⟨s, hs, he⟩ := Option.bind_eq_some_iff.mp h
  have hscalar := ht s (List.mem_of_getElem? hs) element he
  unfold isStruct
  cases hl : t.shape? element with
  | none => rfl
  | some lane =>
      rw [hl] at hscalar
      cases lane with
      | struct name fields => cases hscalar
      | _ => rfl

end ShaderReport
