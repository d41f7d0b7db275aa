/-
# `Module.build` — the modules that steps make

A module is made one step at a time: a type is asked for, a global is added, a function is
declared, a block is appended to a function.  A fact about all such modules is proved in one
way (`build_invariant`): it holds at the start, and every step keeps it.

Of the table of types a run of steps shows no more than the requests that it makes
(`types_build`).  A global asks for the pointer to its type.  A declaration asks for nothing,
so whether the pointer to a function's type is there is up to the other steps
(`find?_pointer_run`).
-/
import ShaderReport.Proofs.Types.Matrices
import ShaderReport.Module.Basic

namespace ShaderReport

/-! ## Tables after any requests

Nothing here asks for requests to be admissible. -/

namespace TypeTable

theorem grows_answer (t : TypeTable) (r : Request) : t.Grows (r.answer t).2 := by
  cases r with
  | shape s => exact grows_intern t.grows_refl s
  | matrix element rows cols => exact t.grows_matrix element rows cols

theorem distinct_answer {t : TypeTable} (ht : t.Distinct) (r : Request) :
    (r.answer t).2.Distinct := by
  cases r with
  | shape s => exact distinct_intern ht s
  | matrix element rows cols =>
      exact distinct_intern (distinct_intern (distinct_intern ht _) _) _

theorem distinct_empty : Distinct {} := by
  intro i j s s' h
  simp [shape?] at h

theorem distinct_run {t : TypeTable} (ht : t.Distinct) (rs : List Request) :
    (t.run rs).Distinct := by
  induction rs generalizing t with
  | nil => exact ht
  | cons r rest ih => exact ih (distinct_answer ht r)

/-- A type is still missing exactly if it was, and another one was asked for. -/
theorem find?_intern_eq_none_iff {t : TypeTable} {s s' : Shape} :
    (t.intern s).2.find? s' = none ↔ t.find? s' = none ∧ s.key ≠ s'.key := by
  rcases t.intern_cases s with ⟨id, found, e⟩ | ⟨-, e⟩
  · rw [e]
    constructor
    · intro missing
      refine ⟨missing, ?_⟩
      intro same
      rw [find?_congr same, missing] at found
      cases found
    · exact And.left
  · rw [e, find?_append, Option.or_eq_none_iff]
    refine and_congr_right fun _ => ?_
    by_cases same : s.key = s'.key
    · simp [same]
    · simp [same]

/-- A matrix is a vector, an array and a struct, so only a request for the pointer itself
brings it. -/
theorem find?_pointer_answer {t : TypeTable} {pointee : TypeId} {space : UInt32} (r : Request) :
    (r.answer t).2.find? (.pointer pointee space) = none ↔
      t.find? (.pointer pointee space) = none ∧ r ≠ .shape (.pointer pointee space) := by
  cases r with
  | shape s =>
      have same : s.key = (Shape.pointer pointee space).key ↔ s = .pointer pointee space := by
        constructor
        · exact Shape.eq_of_key
        · rintro rfl
          rfl
      rw [Request.answer, find?_intern_eq_none_iff, Ne, same, Ne, Request.shape.injEq]
  | matrix element rows cols =>
      let row := t.intern (.vector element cols)
      let storage := row.2.intern (.array row.1 (.ofNat rows.toNat))
      show (storage.2.intern (.struct _ [storage.1])).2.find? _ = none ↔ _
      rw [find?_intern_eq_none_iff, find?_intern_eq_none_iff, find?_intern_eq_none_iff]
      simp [Shape.key, Shape.structName?]

theorem find?_pointer_run {t : TypeTable} {pointee : TypeId} {space : UInt32}
    (rs : List Request) : (t.run rs).find? (.pointer pointee space) = none ↔
      t.find? (.pointer pointee space) = none ∧ .shape (.pointer pointee space) ∉ rs := by
  induction rs generalizing t with
  | nil => simp [run]
  | cons r rest ih =>
      rw [run, ih, find?_pointer_answer, List.mem_cons, not_or, and_assoc, ne_comm]

end TypeTable

/-! ## Steps -/

/-- One step of making a module. -/
inductive BuildStep where
  /-- Asks for a type. -/
  | ask (request : Request)
  | addGlobal (name : String) (valueType : TypeId) (constant : Bool)
  | declare (name : String) (type : TypeId)
  /-- Appends a block to the function at a place. -/
  | append (id : FunctionId) (block : Block)
deriving DecidableEq

namespace BuildStep

/-- The module after the step. -/
def apply (m : Module) : BuildStep → Module
  | .ask request => { m with types := (request.answer m.types).2 }
  | .addGlobal name valueType constant => (m.addGlobal name valueType constant).2
  | .declare name type => (m.declareFunction name type).2
  | .append id block => m.appendBlock id block

/-- What the step asks of the table of types. -/
def request? : BuildStep → Option Request
  | .ask request => some request
  | .addGlobal _ valueType _ => some (.shape (.pointer valueType 0))
  | .declare .. | .append .. => none

end BuildStep

namespace Module

/-- The module after a run of steps. -/
def build (m : Module) : List BuildStep → Module
  | [] => m
  | step :: rest => build (step.apply m) rest

/-- What holds at the start and survives every step holds at the end. -/
theorem build_invariant {P : Module → Prop} (keeps : ∀ m step, P m → P (BuildStep.apply m step))
    {m : Module} (start : P m) (steps : List BuildStep) : P (m.build steps) := by
  induction steps generalizing m with
  | nil => exact start
  | cons step rest ih => exact ih (keeps m step start)

/-- A declaration finds the name taken, or appends a function. -/
theorem declareFunction_cases (m : Module) (name : String) (type : TypeId) :
    (∃ id, m.functionByName? name = some id ∧ m.declareFunction name type = (id, m)) ∨
      (m.functionByName? name = none ∧ m.declareFunction name type =
        (m.functions.length, { m with functions := m.functions ++ [{ name, type }] })) := by
  cases h : m.functionByName? name with
  | none => exact Or.inr ⟨rfl, by simp only [declareFunction, h]⟩
  | some id => exact Or.inl ⟨id, rfl, by simp only [declareFunction, h]⟩

theorem types_declareFunction (m : Module) (name : String) (type : TypeId) :
    (m.declareFunction name type).2.types = m.types := by
  rcases m.declareFunction_cases name type with ⟨_, _, e⟩ | ⟨_, e⟩ <;> rw [e]

theorem globals_declareFunction (m : Module) (name : String) (type : TypeId) :
    (m.declareFunction name type).2.globals = m.globals := by
  rcases m.declareFunction_cases name type with ⟨_, _, e⟩ | ⟨_, e⟩ <;> rw [e]

theorem types_apply (m : Module) (step : BuildStep) :
    (step.apply m).types = m.types.run step.request?.toList := by
  cases step with
  | ask request => rfl
  | addGlobal name valueType constant => rfl
  | declare name type => exact m.types_declareFunction name type
  | append id block => rfl

/-- The table is what the requests make of it, in their order. -/
theorem types_build (m : Module) (steps : List BuildStep) :
    (m.build steps).types = m.types.run (steps.filterMap BuildStep.request?) := by
  induction steps generalizing m with
  | nil => rfl
  | cons step rest ih =>
      rw [build, ih, types_apply]
      cases h : step.request? with
      | none =>
          rw [List.filterMap_cons_none h]
          rfl
      | some request =>
          rw [List.filterMap_cons_some h]
          rfl

end Module

end ShaderReport
