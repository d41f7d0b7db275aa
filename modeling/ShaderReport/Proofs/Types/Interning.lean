/-
# Every type stands in the table once

A type is looked up by its key: a named struct by its name, any other type by its shape
(`Shape.key`).  Two shapes denote one type exactly if their keys are equal
(`same_iff`), so a table holds every type once as soon as no key occurs twice
(`Distinct`).  Interning keeps that, because it appends only what a search did not
find.

In such a table a search has only one place it can find.  All of `Exact` is read off
this: places and types determine one another, a name belongs to one struct, and a
second struct of a name is the first one.

## Two indices instead of a search

`MappedTable` is a table that does not search.  It keeps two maps beside the shapes, from
names and from shapes to places, and looks into one of them.  Whatever is asked of it,
the maps say what a search of the shapes would say (`Mirrors`), so it answers every
request as the table does.
-/
import Mathlib.Tactic.Linarith
import ShaderReport.Proofs.Types.Built

namespace ShaderReport

/-! ## Keys -/

namespace Shape

/-- What a type is looked up by. -/
def key (s : Shape) : String ⊕ Shape :=
  match s.structName? with
  | some name => .inl name
  | none => .inr s

theorem key_of_named {s : Shape} {name : String} (h : s.structName? = some name) :
    s.key = .inl name := by
  rw [key, h]

theorem key_of_literal {s : Shape} (h : s.structName? = none) : s.key = .inr s := by
  rw [key, h]

theorem structName?_of_key {s : Shape} {name : String} (h : s.key = .inl name) :
    s.structName? = some name := by
  cases hs : s.structName? with
  | none =>
      rw [key_of_literal hs] at h
      cases h
  | some found =>
      rw [key_of_named hs] at h
      cases h
      rfl

theorem eq_of_key {s found : Shape} (h : found.key = .inr s) : found = s := by
  cases hf : found.structName? with
  | none =>
      rw [key_of_literal hf] at h
      cases h
      rfl
  | some name =>
      rw [key_of_named hf] at h
      cases h

/-- Denoting one type is having one key. -/
theorem same_iff {s found : Shape} : s.same found = true ↔ found.key = s.key := by
  unfold same
  cases hs : s.structName? with
  | none =>
      rw [key_of_literal hs, beq_iff_eq]
      constructor
      · rintro rfl
        exact key_of_literal hs
      · exact eq_of_key
  | some name =>
      rw [key_of_named hs, beq_iff_eq]
      exact ⟨key_of_named, structName?_of_key⟩

end Shape

namespace TypeTable

/-! ## Searching -/

theorem find?_eq_none_iff {t : TypeTable} {s : Shape} :
    t.find? s = none ↔ ∀ id found, t.shape? id = some found → found.key ≠ s.key := by
  rw [find?, List.findIdx?_eq_none_iff]
  constructor
  · intro h id found there same
    have refused := h found (List.mem_of_getElem? there)
    rw [Shape.same_iff.mpr same] at refused
    cases refused
  · intro h found member
    obtain ⟨id, there⟩ := List.mem_iff_getElem?.mp member
    rw [Bool.eq_false_iff]
    intro same
    exact h id found there (Shape.same_iff.mp same)

/-- What a search finds has the key. -/
theorem key_of_find? {t : TypeTable} {s : Shape} {id : TypeId} (h : t.find? s = some id) :
    ∃ found, t.shape? id = some found ∧ found.key = s.key := by
  obtain ⟨inside, same, -⟩ := List.findIdx?_eq_some_iff_getElem.mp h
  exact ⟨_, List.getElem?_eq_getElem inside, Shape.same_iff.mp same⟩

/-- The search only looks at the key. -/
theorem find?_congr {t : TypeTable} {s s' : Shape} (h : s.key = s'.key) :
    t.find? s = t.find? s' := by
  have same : s.same = s'.same := by
    funext found
    rw [Bool.eq_iff_iff, Shape.same_iff, Shape.same_iff, h]
  rw [find?, same, find?]

/-- A search behind an appended shape. -/
theorem find?_append (t : TypeTable) (s s' : Shape) :
    find? ⟨t.shapes ++ [s]⟩ s' =
      (t.find? s').or (if s.key = s'.key then some t.size else none) := by
  rw [find?, List.findIdx?_append, find?]
  congr 1
  by_cases same : s.key = s'.key
  · rw [if_pos same, List.findIdx?_cons, if_pos (Shape.same_iff.mpr same)]
    simp [size]
  · rw [if_neg same, List.findIdx?_cons, if_neg (fun h => same (Shape.same_iff.mp h))]
    simp

/-- No two places hold one type. -/
def Distinct (t : TypeTable) : Prop :=
  ∀ i j s s', t.shape? i = some s → t.shape? j = some s' → s.key = s'.key → i = j

theorem distinct_intern {t : TypeTable} (ht : t.Distinct) (s : Shape) :
    (t.intern s).2.Distinct := by
  rcases t.intern_cases s with ⟨id, -, e⟩ | ⟨absent, e⟩
  · rw [e]
    exact ht
  · have fresh := find?_eq_none_iff.mp absent
    intro i j a b ha hb same
    rcases shape?_intern_cases ha with old | ⟨rfl, rfl⟩
    · rcases shape?_intern_cases hb with old' | ⟨rfl, rfl⟩
      · exact ht i j a b old old' same
      · exact absurd same (fresh i a old)
    · rcases shape?_intern_cases hb with old' | ⟨rfl, -⟩
      · exact absurd same.symm (fresh j b old')
      · rfl

theorem Built.distinct {t : TypeTable} (ht : t.Built) : t.Distinct := by
  have keeps : ∀ (t : TypeTable) (s : Shape), t.Distinct → t.HasAll s.components →
      (t.intern s).2.Distinct := fun _ s h _ => distinct_intern h s
  refine ht.invariant keeps ?_
  intro i j s s' h
  simp [shape?] at h

/-- In a table without repetitions, whatever has the key is what a search finds. -/
theorem find?_eq_some_iff {t : TypeTable} (ht : t.Distinct) {s : Shape} {id : TypeId} :
    t.find? s = some id ↔ ∃ found, t.shape? id = some found ∧ found.key = s.key := by
  constructor
  · exact key_of_find?
  · rintro ⟨found, there, same⟩
    cases h : t.find? s with
    | none => exact absurd same (find?_eq_none_iff.mp h id found there)
    | some other =>
        obtain ⟨found', there', same'⟩ := key_of_find? h
        rw [ht other id found' found there' there (same'.trans same.symm)]

/-! ## Exactness -/

/-- Every type is in the table once, and is found there. -/
structure Exact (t : TypeTable) : Prop where
  /-- Places are equal exactly if their types are. -/
  place_eq_iff : ∀ i j s s', t.shape? i = some s → t.shape? j = some s' → (i = j ↔ s = s')
  /-- Named structs are equal exactly if their names are, so no name belongs to two. -/
  named_eq_iff : ∀ i j name name', t.structName? i = some name → t.structName? j = some name' →
    (i = j ↔ name = name')
  find_literal : ∀ s, s.structName? = none → ∀ id, t.find? s = some id ↔ t.shape? id = some s
  find_literal_none : ∀ s, s.structName? = none →
    (t.find? s = none ↔ ∀ id, t.shape? id ≠ some s)
  find_named : ∀ name fields id, t.find? (.struct (some name) fields) = some id ↔
    t.structName? id = some name
  find_named_none : ∀ name fields, t.find? (.struct (some name) fields) = none ↔
    ∀ id, t.structName? id ≠ some name
  find_name : ∀ name fields, t.structByName? name = t.find? (.struct (some name) fields)
  /-- A type that is there is answered, and nothing changes. -/
  intern_found : ∀ s id, t.find? s = some id → t.intern s = (id, t)
  /-- A type that is not there is appended as it is, and nothing else. -/
  intern_new : ∀ s, t.find? s = none → t.intern s = (t.size, ⟨t.shapes ++ [s]⟩)
  /-- A second struct of a name is the first one, with the fields that one has. -/
  intern_retaken : ∀ id name fields other, t.shape? id = some (.struct (some name) fields) →
    t.intern (.struct (some name) other) = (id, t)

theorem structName?_eq_some_iff {t : TypeTable} {id : TypeId} {name : String} :
    t.structName? id = some name ↔ ∃ s, t.shape? id = some s ∧ s.key = .inl name := by
  rw [structName?, Option.bind_eq_some_iff]
  constructor
  · rintro ⟨s, there, named⟩
    exact ⟨s, there, Shape.key_of_named named⟩
  · rintro ⟨s, there, same⟩
    exact ⟨s, there, Shape.structName?_of_key same⟩

section Exact

variable {t : TypeTable}

theorem find?_literal_iff (ht : t.Distinct) {s : Shape} (literal : s.structName? = none)
    {id : TypeId} : t.find? s = some id ↔ t.shape? id = some s := by
  rw [find?_eq_some_iff ht, Shape.key_of_literal literal]
  constructor
  · rintro ⟨found, there, same⟩
    rw [there, Shape.eq_of_key same]
  · intro there
    exact ⟨s, there, Shape.key_of_literal literal⟩

theorem find?_named_iff (ht : t.Distinct) {name : String} {fields : List TypeId} {id : TypeId} :
    t.find? (.struct (some name) fields) = some id ↔ t.structName? id = some name := by
  rw [find?_eq_some_iff ht, structName?_eq_some_iff]
  exact Iff.rfl

theorem structByName?_eq (t : TypeTable) (name : String) (fields : List TypeId) :
    t.structByName? name = t.find? (.struct (some name) fields) := rfl

theorem intern_of_find? {s : Shape} {id : TypeId} (h : t.find? s = some id) :
    t.intern s = (id, t) := by
  rw [intern, h]

theorem Distinct.exact (ht : t.Distinct) : t.Exact where
  place_eq_iff := by
    intro i j s s' hi hj
    constructor
    · rintro rfl
      rw [hi] at hj
      exact Option.some.inj hj
    · rintro rfl
      exact ht i j s s hi hj rfl
  named_eq_iff := by
    intro i j name name' hi hj
    constructor
    · rintro rfl
      rw [hi] at hj
      exact Option.some.inj hj
    · rintro rfl
      obtain ⟨s, there, same⟩ := structName?_eq_some_iff.mp hi
      obtain ⟨s', there', same'⟩ := structName?_eq_some_iff.mp hj
      exact ht i j s s' there there' (same.trans same'.symm)
  find_literal := fun s literal id => find?_literal_iff ht literal
  find_literal_none := by
    intro s literal
    rw [Option.eq_none_iff_forall_ne_some]
    exact forall_congr' fun id => not_congr (find?_literal_iff ht literal)
  find_named := fun name fields id => find?_named_iff ht
  find_named_none := by
    intro name fields
    rw [Option.eq_none_iff_forall_ne_some]
    exact forall_congr' fun id => not_congr (find?_named_iff ht)
  find_name := t.structByName?_eq
  intern_found := fun s id => intern_of_find?
  intern_new := by
    intro s absent
    rw [intern, absent]
  intern_retaken := by
    intro id name fields other there
    refine intern_of_find? ((find?_named_iff ht).mpr ?_)
    rw [structName?, there]
    rfl

end Exact

end TypeTable

/-! ## Two indices -/

deriving instance Hashable for Shape

/-- The shapes of a module's types, with an index of the names and one of the shapes that
have none. -/
structure MappedTable where
  shapes : List Shape := []
  literals : Std.HashMap Shape TypeId := {}
  named : Std.HashMap String TypeId := {}

namespace MappedTable

/-- The place of a type, by one look into one index. -/
def find? (x : MappedTable) (s : Shape) : Option TypeId :=
  match s.structName? with
  | some name => x.named[name]?
  | none => x.literals[s]?

def structByName? (x : MappedTable) (name : String) : Option TypeId := x.named[name]?

/-- Appends a shape and enters its place in the index that it belongs to. -/
def enter (x : MappedTable) (s : Shape) : MappedTable :=
  match s.structName? with
  | some name =>
    { x with shapes := x.shapes ++ [s], named := x.named.insert name x.shapes.length }
  | none =>
    { x with shapes := x.shapes ++ [s], literals := x.literals.insert s x.shapes.length }

def intern (x : MappedTable) (s : Shape) : TypeId × MappedTable :=
  match x.find? s with
  | some id => (id, x)
  | none => (x.shapes.length, x.enter s)

def matrix (x : MappedTable) (element : TypeId) (rows cols : UInt32) : TypeId × MappedTable :=
  let name := TypeTable.matrixName (TypeTable.text ⟨x.shapes⟩ element) rows cols
  let (row, x) := x.intern (.vector element cols)
  let (storage, x) := x.intern (.array row (.ofNat rows.toNat))
  x.intern (.struct (some name) [storage])

def answer (x : MappedTable) : Request → TypeId × MappedTable
  | .shape s => x.intern s
  | .matrix element rows cols => x.matrix element rows cols

def run (x : MappedTable) : List Request → MappedTable
  | [] => x
  | r :: rest => run (x.answer r).2 rest

/-- The indices say of the shapes what a search would say. -/
structure Mirrors (x : MappedTable) (t : TypeTable) : Prop where
  shapes : x.shapes = t.shapes
  find : ∀ s, x.find? s = t.find? s
  name : ∀ name, x.structByName? name = t.structByName? name

theorem find?_of_key {x : MappedTable} {s : Shape} :
    x.find? s = match s.key with
      | .inl name => x.named[name]?
      | .inr s => x.literals[s]? := by
  unfold find?
  cases hs : s.structName? with
  | none => rw [Shape.key_of_literal hs]
  | some name => rw [Shape.key_of_named hs]

/-- What has been entered is found by its key, and nothing else is found elsewhere. -/
theorem find?_enter (x : MappedTable) (s s' : Shape) :
    (x.enter s).find? s' = if s.key = s'.key then some x.shapes.length else x.find? s' := by
  rw [find?_of_key, find?_of_key, enter]
  cases hs : s.structName? with
  | none =>
      rw [Shape.key_of_literal hs]
      cases s'.key with
      | inl name => simp
      | inr found => simp [Std.HashMap.getElem?_insert]
  | some name =>
      rw [Shape.key_of_named hs]
      cases s'.key with
      | inl name' => simp [Std.HashMap.getElem?_insert]
      | inr found => simp

theorem shapes_enter (x : MappedTable) (s : Shape) : (x.enter s).shapes = x.shapes ++ [s] := by
  unfold enter
  cases s.structName? with
  | none => rfl
  | some name => rfl

namespace Mirrors

variable {x : MappedTable} {t : TypeTable}

/-- It is enough to look at the searches for shapes: names are looked up like structs. -/
theorem of_find (shapes : x.shapes = t.shapes) (find : ∀ s, x.find? s = t.find? s) :
    x.Mirrors t := by
  refine ⟨shapes, find, ?_⟩
  intro name
  rw [t.structByName?_eq name []]
  exact find (.struct (some name) [])

theorem enter (h : x.Mirrors t) {s : Shape} (absent : t.find? s = none) :
    (x.enter s).Mirrors ⟨t.shapes ++ [s]⟩ := by
  refine of_find ?_ ?_
  · rw [shapes_enter, h.shapes]
  · intro s'
    rw [find?_enter, TypeTable.find?_append, h.find, h.shapes]
    by_cases same : s.key = s'.key
    · rw [if_pos same, if_pos same, ← TypeTable.find?_congr same, absent]
      rfl
    · rw [if_neg same, if_neg same, Option.or_none]

theorem intern (h : x.Mirrors t) (s : Shape) :
    (x.intern s).1 = (t.intern s).1 ∧ (x.intern s).2.Mirrors (t.intern s).2 := by
  rw [MappedTable.intern, h.find]
  rcases t.intern_cases s with ⟨id, found, e⟩ | ⟨absent, e⟩
  · rw [found, e]
    exact ⟨rfl, h⟩
  · rw [absent, e]
    exact ⟨congrArg List.length h.shapes, h.enter absent⟩

theorem matrix (h : x.Mirrors t) (element : TypeId) (rows cols : UInt32) :
    (x.matrix element rows cols).1 = (t.matrix element rows cols).1 ∧
      (x.matrix element rows cols).2.Mirrors (t.matrix element rows cols).2 := by
  -- row vector, array of rows and struct, each at the place the one before was answered
  obtain ⟨row, hrow⟩ := h.intern (.vector element cols)
  obtain ⟨storage, hstorage⟩ := hrow.intern (.array (t.intern (.vector element cols)).1
    (.ofNat rows.toNat))
  unfold MappedTable.matrix TypeTable.matrix
  simp only [row, storage, h.shapes]
  exact hstorage.intern _

theorem answer (h : x.Mirrors t) (r : Request) :
    (x.answer r).1 = (r.answer t).1 ∧ (x.answer r).2.Mirrors (r.answer t).2 := by
  cases r with
  | shape s => exact h.intern s
  | matrix element rows cols => exact h.matrix element rows cols

theorem run (h : x.Mirrors t) (rs : List Request) : (x.run rs).Mirrors (t.run rs) := by
  induction rs generalizing x t with
  | nil => exact h
  | cons r rest ih => exact ih (h.answer r).2

theorem empty : Mirrors {} {} := by
  refine of_find rfl ?_
  intro s
  rw [find?_of_key]
  cases s.key with
  | inl name => exact Std.HashMap.getElem?_empty
  | inr s => exact Std.HashMap.getElem?_empty

end Mirrors

end MappedTable

/-! ## Whole runs -/

/-- Whatever has been asked of a table, every type is in it once and is found there; and
a table with two indices has answered, and will answer, the same. -/
theorem interning_exact {rs : List Request} (admitted : TypeTable.Admits {} rs) :
    (TypeTable.run {} rs).Exact ∧
    (MappedTable.run {} rs).Mirrors (TypeTable.run {} rs) ∧
    ∀ r, ((MappedTable.run {} rs).answer r).1 = (r.answer (TypeTable.run {} rs)).1 := by
  have built : (TypeTable.run {} rs).Built := ⟨rs, admitted, rfl⟩
  have mirrors := MappedTable.Mirrors.empty.run rs
  exact ⟨built.distinct.exact, mirrors, fun r => (mirrors.answer r).1⟩

/-- A scalar, a struct, a matrix, and all three once more; the struct comes back with
other fields. -/
def repeatedRequests : List Request :=
  [.shape .float, .shape (.struct (some "Light") [0]), .matrix 0 2 3, .shape .float,
   .shape (.struct (some "Light") [2, 2]), .matrix 0 2 3]

theorem interning_exact_repeated :
    (TypeTable.run {} repeatedRequests).size = 5 ∧
    (TypeTable.run {} repeatedRequests).shape? 1 = some (.struct (some "Light") [0]) ∧
    (TypeTable.run {} repeatedRequests).Exact ∧
    ((MappedTable.run {} repeatedRequests).answer (.shape (.struct (some "Light") []))).1 = 1 := by
  obtain ⟨exact, -, answers⟩ := @interning_exact repeatedRequests (by decide +kernel)
  have first : (TypeTable.run {} repeatedRequests).shape? 1 =
      some (.struct (some "Light") [0]) := by decide +kernel
  refine ⟨by decide +kernel, first, exact, ?_⟩
  rw [answers, Request.answer, exact.intern_retaken 1 "Light" [0] [] first]

end ShaderReport
