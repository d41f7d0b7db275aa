/-
# The types of operands

Constants and temporaries carry their types.  A symbol has none of its own: its type is the
pointer to what it stands for, and that pointer has to be found in the table of types.

A global brings it.  The pointer is interned when the global is added, its place is kept with
the global, and no later step moves it (`PointsToValue`).  A declared function brings nothing.
Its pointer is looked up when it is needed, and is there only if another step asked for it: a
request for that very type, or a global that holds a function of the same type
(`find?_pointer_run`).

So an operand that can be resolved has a type, unless it is a function whose pointer nothing
asked for (`Bare`).  A listing then writes `<badref>` in the place of the type, and since no
type reads like that (`text_ne_badref`), it does so for no other operand.
-/
import ShaderReport.Proofs.Module.Built
import ShaderReport.Module.Listing

namespace ShaderReport

/-- The type that an operand carries. -/
def Value.ownType? : Value → Option TypeId
  | .integer type _ | .float type _ | .undef type | .temporary type _ => some type
  | .global _ | .function _ => none

/-! ## No type reads like a missing one -/

/-- The text of a shape has a character that stands nowhere in the mark for a missing type. -/
theorem Shape.exists_mem_text (below : TypeId → String) (s : Shape) :
    ∃ c ∈ (s.text below).toList, c ∉ "<badref>".toList := by
  cases s with
  | void => exact ⟨'v', by simp [text], by simp⟩
  | label => exact ⟨'l', by simp [text], by simp⟩
  | metadata => exact ⟨'m', by simp [text], by simp⟩
  | half => exact ⟨'h', by simp [text], by simp⟩
  | float => exact ⟨'o', by simp [text], by simp⟩
  | double => exact ⟨'o', by simp [text], by simp⟩
  | integer bits => exact ⟨'i', by simp [text], by simp⟩
  | vector element length => exact ⟨' ', by simp [text], by simp⟩
  | array element length => exact ⟨'[', by simp [text], by simp⟩
  | struct name fields =>
      cases name with
      | none => exact ⟨' ', by simp [text], by simp⟩
      | some name => exact ⟨'%', by simp [text], by simp⟩
  | pointer pointee space =>
      refine ⟨'*', ?_, by simp⟩
      by_cases h : space = 0 <;> simp [text, h]
  | function result parameters => exact ⟨'(', by simp [text], by simp⟩

theorem TypeTable.text_ne_badref (t : TypeTable) (id : TypeId) : t.text id ≠ "<badref>" := by
  intro same
  by_cases inside : id < t.size
  · obtain ⟨s, there⟩ := exists_shape? inside
    rw [text, fold_eq _ t there] at same
    obtain ⟨c, member, foreign⟩ := s.exists_mem_text _
    rw [same] at member
    exact foreign member
  · rw [text, fold_of_size_le _ t (Nat.le_of_not_lt inside)] at same
    exact absurd same (by decide)

namespace Module

/-! ## Globals keep their pointers -/

/-- The type of the symbol is a pointer to the type of what is stored. -/
def PointsToValue (t : TypeTable) (g : Global) : Prop :=
  t.shape? g.symbolType = some (.pointer g.valueType 0)

theorem PointsToValue.grows {t t' : TypeTable} {g : Global} (h : PointsToValue t g)
    (grows : t.Grows t') : PointsToValue t' g := by
  rw [PointsToValue, grows.shape? (TypeTable.lt_size_of_shape? h)]
  exact h

theorem pointsToValue_apply {m : Module} (step : BuildStep)
    (h : ∀ g ∈ m.globals, PointsToValue m.types g) :
    ∀ g ∈ (step.apply m).globals, PointsToValue (step.apply m).types g := by
  cases step with
  | ask request =>
      intro g member
      exact (h g member).grows (m.types.grows_answer request)
  | addGlobal name valueType constant =>
      intro g member
      rcases List.mem_append.mp member with old | new
      · exact (h g old).grows (TypeTable.grows_intern m.types.grows_refl _)
      · rw [List.mem_singleton.mp new]
        exact m.types.shape?_intern_literal rfl
  | declare name type =>
      intro g member
      rw [BuildStep.apply, globals_declareFunction] at member
      rw [BuildStep.apply, types_declareFunction]
      exact h g member
  | append id block => exact h

theorem pointsToValue_build (name : String) (steps : List BuildStep) :
    ∀ g ∈ (build { name } steps).globals, PointsToValue (build { name } steps).types g := by
  refine build_invariant (P := fun m => ∀ g ∈ m.globals, PointsToValue m.types g) ?_ ?_ steps
  · intro m step h
    exact pointsToValue_apply step h
  · intro g member
    cases member

/-! ## Operands -/

/-- Whether the type or the symbol that an operand names is in the module. -/
def Resolves (m : Module) : Value → Prop
  | .integer type _ | .float type _ | .undef type | .temporary type _ => type < m.types.size
  | .global id => id < m.globals.length
  | .function id => id < m.functions.length

instance (m : Module) : (v : Value) → Decidable (m.Resolves v)
  | .integer type _ | .float type _ | .undef type | .temporary type _ =>
      inferInstanceAs (Decidable (type < m.types.size))
  | .global id => inferInstanceAs (Decidable (id < m.globals.length))
  | .function id => inferInstanceAs (Decidable (id < m.functions.length))

/-- The type of what a symbol stands for. -/
def meaning? (m : Module) : Value → Option TypeId
  | .global id => (m.global? id).map (·.valueType)
  | .function id => (m.function? id).map (·.type)
  | _ => none

/-- A function whose pointer is not among the types that were asked for. -/
def Bare (m : Module) (asked : List Request) (v : Value) : Prop :=
  ∃ id f, v = .function id ∧ m.function? id = some f ∧ .shape (.pointer f.type 0) ∉ asked

/-- What is known of the type of an operand. -/
structure Typed (m : Module) (asked : List Request) (v : Value) : Prop where
  own : ∀ type, v.ownType? = some type → m.valueType? v = some type
  /-- The type of a symbol is the pointer to what it stands for. -/
  symbol : ∀ meant, m.meaning? v = some meant → ∀ id, m.valueType? v = some id →
    m.types.shape? id = some (.pointer meant 0)
  untyped_iff : m.valueType? v = none ↔ m.Bare asked v
  badref_iff : m.typedValueText v = "<badref> " ++ m.valueText v ↔ m.Bare asked v

theorem typedValueText_eq_badref_iff (m : Module) (v : Value) :
    m.typedValueText v = "<badref> " ++ m.valueText v ↔ m.valueType? v = none := by
  rw [typedValueText, String.append_left_inj,
    show "<badref> " = "<badref>" ++ " " from rfl, String.append_left_inj]
  cases m.valueType? v with
  | none => simp
  | some type => simp [m.types.text_ne_badref type]

theorem valueType?_global {m : Module} {id : GlobalId} {g : Global}
    (there : m.global? id = some g) : m.valueType? (.global id) = some g.symbolType := by
  rw [valueType?, there]
  rfl

theorem valueType?_function {m : Module} {id : FunctionId} {f : Function}
    (there : m.function? id = some f) :
    m.valueType? (.function id) = m.types.find? (.pointer f.type 0) := by
  rw [valueType?, there]
  rfl

/-- A global has kept the place of its pointer, and for a function there is only one place
that a search can find. -/
theorem points_to_meaning {m : Module} (distinct : m.types.Distinct)
    (globals : ∀ g ∈ m.globals, PointsToValue m.types g) {v : Value} {meant id : TypeId}
    (means : m.meaning? v = some meant) (typed : m.valueType? v = some id) :
    m.types.shape? id = some (.pointer meant 0) := by
  cases v with
  | global place =>
      obtain ⟨g, there, rfl⟩ := Option.map_eq_some_iff.mp means
      rw [valueType?_global there] at typed
      obtain rfl := Option.some.inj typed
      exact globals g (List.mem_of_getElem? there)
  | function place =>
      obtain ⟨f, there, rfl⟩ := Option.map_eq_some_iff.mp means
      rw [valueType?_function there] at typed
      exact (TypeTable.find?_literal_iff distinct rfl).mp typed
  | _ => cases means

theorem valueType?_eq_none_iff {m : Module} {asked : List Request}
    (pointers : ∀ pointee, m.types.find? (.pointer pointee 0) = none ↔
      .shape (.pointer pointee 0) ∉ asked)
    {v : Value} (resolves : m.Resolves v) : m.valueType? v = none ↔ m.Bare asked v := by
  cases v with
  | function place =>
      have there : m.function? place = some m.functions[place] := List.getElem?_eq_getElem resolves
      rw [valueType?_function there, pointers]
      constructor
      · intro missing
        exact ⟨place, _, rfl, there, missing⟩
      · rintro ⟨_, f, same, found, missing⟩
        cases same
        rw [Option.some.inj (there.symm.trans found)]
        exact missing
  | global place =>
      have there : m.global? place = some m.globals[place] := List.getElem?_eq_getElem resolves
      rw [valueType?_global there]
      constructor
      · intro missing
        cases missing
      · rintro ⟨_, _, same, -⟩
        cases same
  | _ =>
      constructor
      · intro missing
        cases missing
      · rintro ⟨_, _, same, -⟩
        cases same

/-! ## Whole runs -/

/-- Whatever steps made the module: an operand that can be resolved has a type, for a symbol
it is the pointer to what the symbol stands for, and only a function whose pointer no step
asked for has none and is listed as a bad reference. -/
theorem operand_typed_unless_bare (name : String) (steps : List BuildStep) {v : Value}
    (resolves : (build { name } steps).Resolves v) :
    (build { name } steps).Typed (steps.filterMap BuildStep.request?) v := by
  have types := types_build { name } steps
  have distinct : (build { name } steps).types.Distinct := by
    rw [types]
    exact TypeTable.distinct_run TypeTable.distinct_empty _
  have pointers : ∀ pointee, (build { name } steps).types.find? (.pointer pointee 0) = none ↔
      .shape (.pointer pointee 0) ∉ steps.filterMap BuildStep.request? := by
    intro pointee
    rw [types, TypeTable.find?_pointer_run]
    exact and_iff_right rfl
  have untyped := valueType?_eq_none_iff pointers resolves
  refine ⟨?_, ?_, untyped, (typedValueText_eq_badref_iff _ v).trans untyped⟩
  · intro type carried
    cases v with
    | global place | function place => cases carried
    | _ => exact carried
  · intro meant means id typed
    exact points_to_meaning distinct (pointsToValue_build name steps) means typed

/-- A function that returns itself. -/
def returnsItself : List BuildStep :=
  [.ask (.shape .void), .ask (.shape (.function 0 [])), .declare "main" 1,
   .append 0 ⟨"entry", [⟨none, .ret (some (.function 0))⟩]⟩]

/-- The function is there, and it has no type. -/
theorem operand_typed_unless_bare_returned :
    (build { name := "operands" } returnsItself).Resolves (.function 0) ∧
    (build { name := "operands" } returnsItself).valueType? (.function 0) = none ∧
    (build { name := "operands" } returnsItself).typedValueText (.function 0) =
      "<badref> @main" := by
  have resolves : (build { name := "operands" } returnsItself).Resolves (.function 0) := by decide
  have bare : (build { name := "operands" } returnsItself).Bare
      (returnsItself.filterMap BuildStep.request?) (.function 0) :=
    ⟨0, _, rfl, rfl, by decide⟩
  have typed := operand_typed_unless_bare "operands" returnsItself resolves
  exact ⟨resolves, typed.untyped_iff.mpr bare, typed.badref_iff.mpr bare⟩

/-- A global that holds a function of the same type brings the pointer. -/
example : (build { name := "operands" }
      (returnsItself ++ [.addGlobal "handler" 1 true])).typedValueText (.function 0) =
    "void ()* @main" := by
  decide +kernel

end Module

end ShaderReport
