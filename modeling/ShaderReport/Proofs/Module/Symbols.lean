/-
# Symbols and their places

A function is declared by its name, and a second declaration of a name finds the first one.  A
global is added as often as it is asked for.  Both are known by the place they got, and a place
is as good as a name: nothing that is done to a module later gives it another meaning.

What a declaration fixes of a function is its name and type, its head; blocks come later.  A
step appends at most one head and at most one global, and leaves what stands before it
(`heads_apply`, `globals_apply`).  All else is read off these two lists.  Because they only grow
at the end, a search keeps its answer once it has one, and a place keeps what it shows
(`Keeps`).  Because a head is appended only if no head has its name, no name occurs twice, and
the type of a function is the one its first declaration gave (`firstDeclares_build`).

Places are numbers without a bound.  Where they are kept as 32-bit words, the word of a place
tells the place as long as no more than two to the 32nd steps were taken.
-/
import Mathlib.Data.List.Induction
import ShaderReport.Proofs.Module.Operands

namespace ShaderReport

/-- What a declaration says of a function. -/
def Function.head (f : Function) : String × TypeId := (f.name, f.type)

/-- A search by name fails exactly if the name does not occur. -/
theorem findIdx?_name_eq_none_iff {α : Type} {nameOf : α → String} {l : List α} {name : String} :
    l.findIdx? (nameOf · == name) = none ↔ name ∉ l.map nameOf := by
  simp [List.findIdx?_eq_none_iff]

/-- What was found is found again when more has been appended. -/
theorem findIdx?_eq_some_of_isPrefix {α : Type} {p : α → Bool} {l l' : List α} {i : Nat}
    (h : l <+: l') (found : l.findIdx? p = some i) : l'.findIdx? p = some i := by
  obtain ⟨later, rfl⟩ := h
  rw [List.findIdx?_append, found]
  rfl

/-- What was missing is found where it is appended. -/
theorem findIdx?_concat {α : Type} {p : α → Bool} {l : List α} (missing : l.findIdx? p = none)
    {x : α} (h : p x = true) : (l ++ [x]).findIdx? p = some l.length := by
  rw [List.findIdx?_append, missing]
  simp [h]

namespace Module

/-- The heads of all functions. -/
def heads (m : Module) : List (String × TypeId) := m.functions.map Function.head

theorem functionByName?_eq (m : Module) (name : String) :
    m.functionByName? name = m.heads.findIdx? (·.1 == name) := by
  rw [functionByName?, heads, List.findIdx?_map]
  rfl

theorem functionByName?_eq_none_iff {m : Module} {name : String} :
    m.functionByName? name = none ↔ name ∉ m.heads.map (·.1) := by
  rw [functionByName?_eq, findIdx?_name_eq_none_iff]

theorem getElem?_heads (m : Module) (id : FunctionId) :
    m.heads[id]? = (m.function? id).map Function.head := List.getElem?_map

end Module

/-! ## One step -/

namespace BuildStep

/-- The head that a step appends. -/
def addedHead? (m : Module) : BuildStep → Option (String × TypeId)
  | .declare name type => if name ∈ m.heads.map (·.1) then none else some (name, type)
  | .ask _ | .addGlobal .. | .append .. => none

/-- The global that a step appends. -/
def addedGlobal? (m : Module) : BuildStep → Option Global
  | .addGlobal name valueType constant =>
    some ⟨name, valueType, (m.types.intern (.pointer valueType 0)).1, constant⟩
  | .ask _ | .declare .. | .append .. => none

/-- A head is appended for the declaration of a name that is not taken. -/
theorem addedHead?_eq_some_iff {m : Module} {step : BuildStep} {name : String} {type : TypeId} :
    step.addedHead? m = some (name, type) ↔
      step = .declare name type ∧ name ∉ m.heads.map (·.1) := by
  cases step with
  | declare name' type' =>
      rw [addedHead?]
      by_cases taken : name' ∈ m.heads.map (·.1)
      · rw [if_pos taken]
        constructor
        · intro added
          cases added
        · rintro ⟨same, free⟩
          cases same
          exact absurd taken free
      · rw [if_neg taken]
        constructor
        · intro added
          cases added
          exact ⟨rfl, taken⟩
        · rintro ⟨same, -⟩
          cases same
          rfl
  | _ => simp [addedHead?]

end BuildStep

namespace Module

theorem heads_appendBlock (m : Module) (id : FunctionId) (block : Block) :
    (m.appendBlock id block).heads = m.heads := by
  refine List.ext_getElem? ?_
  intro place
  rw [getElem?_heads, getElem?_heads, function?, function?, appendBlock, List.getElem?_modify]
  cases m.functions[place]? with
  | none => rfl
  | some f => by_cases here : id = place <;> simp [here, Function.head]

theorem heads_apply (m : Module) (step : BuildStep) :
    (step.apply m).heads = m.heads ++ (step.addedHead? m).toList := by
  cases step with
  | ask request => exact (List.append_nil _).symm
  | addGlobal name valueType constant => exact (List.append_nil _).symm
  | declare name type =>
      rw [BuildStep.apply, BuildStep.addedHead?]
      rcases m.declareFunction_cases name type with ⟨id, found, e⟩ | ⟨missing, e⟩
      · have taken : name ∈ m.heads.map (·.1) := by
          by_contra free
          rw [functionByName?_eq_none_iff.mpr free] at found
          cases found
        rw [e, if_pos taken]
        exact (List.append_nil _).symm
      · rw [e, if_neg (functionByName?_eq_none_iff.mp missing)]
        exact List.map_append
  | append id block => exact (m.heads_appendBlock id block).trans (List.append_nil _).symm

theorem globals_apply (m : Module) (step : BuildStep) :
    (step.apply m).globals = m.globals ++ (step.addedGlobal? m).toList := by
  cases step with
  | addGlobal name valueType constant => rfl
  | ask request => exact (List.append_nil _).symm
  | declare name type =>
      exact (m.globals_declareFunction name type).trans (List.append_nil _).symm
  | append id block => exact (List.append_nil _).symm

/-! ## What later steps leave -/

/-- `m'` has what `m` has, at the same places. -/
structure Keeps (m m' : Module) : Prop where
  functions : m.heads <+: m'.heads
  globals : m.globals <+: m'.globals
  types : m.types.Grows m'.types

theorem keeps_refl (m : Module) : m.Keeps m :=
  ⟨List.prefix_rfl, List.prefix_rfl, m.types.grows_refl⟩

theorem Keeps.trans {m m' m'' : Module} (h : m.Keeps m') (h' : m'.Keeps m'') : m.Keeps m'' := by
  refine ⟨h.functions.trans h'.functions, h.globals.trans h'.globals, ?_⟩
  obtain ⟨later, e⟩ := h.types
  obtain ⟨later', e'⟩ := h'.types
  exact ⟨later ++ later', by rw [e', e, List.append_assoc]⟩

theorem keeps_apply (m : Module) (step : BuildStep) : m.Keeps (step.apply m) where
  functions := by
    rw [heads_apply]
    exact List.prefix_append ..
  globals := by
    rw [globals_apply]
    exact List.prefix_append ..
  types := by
    rw [types_apply]
    cases step.request? with
    | none => exact m.types.grows_refl
    | some request => exact m.types.grows_answer request

theorem keeps_build (m : Module) (steps : List BuildStep) : m.Keeps (m.build steps) := by
  induction steps generalizing m with
  | nil => exact m.keeps_refl
  | cons step rest ih => exact (m.keeps_apply step).trans (ih _)

theorem build_append (m : Module) (before after : List BuildStep) :
    m.build (before ++ after) = (m.build before).build after := by
  induction before generalizing m with
  | nil => rfl
  | cons step rest ih => exact ih _

section Keeps

variable {m m' : Module} (h : m.Keeps m')
include h

theorem Keeps.functionByName? {name : String} {id : FunctionId}
    (found : m.functionByName? name = some id) : m'.functionByName? name = some id := by
  rw [functionByName?_eq] at found ⊢
  exact findIdx?_eq_some_of_isPrefix h.functions found

theorem Keeps.globalByName? {name : String} {id : GlobalId}
    (found : m.globalByName? name = some id) : m'.globalByName? name = some id :=
  findIdx?_eq_some_of_isPrefix h.globals found

theorem Keeps.global? {id : GlobalId} {g : Global} (there : m.global? id = some g) :
    m'.global? id = some g := by
  obtain ⟨inside, e⟩ := List.getElem?_eq_some_iff.mp there
  rw [Module.global?, List.prefix_iff_getElem?.mp h.globals id inside, e]

end Keeps

/-! ## What a step answers -/

theorem functionByName?_declareFunction (m : Module) (name : String) (type : TypeId) :
    (m.declareFunction name type).2.functionByName? name =
      some (m.declareFunction name type).1 := by
  rcases m.declareFunction_cases name type with ⟨id, found, e⟩ | ⟨missing, e⟩
  · rw [e]
    exact found
  · rw [e]
    exact findIdx?_concat missing (beq_self_eq_true name)

/-- The place of a name shows that name. -/
theorem exists_function_of_functionByName? {m : Module} {name : String} {id : FunctionId}
    (found : m.functionByName? name = some id) :
    ∃ f, m.function? id = some f ∧ f.name = name := by
  obtain ⟨inside, named, -⟩ := List.findIdx?_eq_some_iff_getElem.mp found
  exact ⟨_, List.getElem?_eq_getElem inside, by simpa using named⟩

theorem global?_addGlobal (m : Module) (name : String) (valueType : TypeId) (constant : Bool) :
    (m.addGlobal name valueType constant).2.global? (m.addGlobal name valueType constant).1 =
      some ⟨name, valueType, (m.types.intern (.pointer valueType 0)).1, constant⟩ :=
  List.getElem?_concat_length

theorem globalByName?_addGlobal {m : Module} {name : String} (missing : m.globalByName? name = none)
    (valueType : TypeId) (constant : Bool) :
    (m.addGlobal name valueType constant).2.globalByName? name =
      some (m.addGlobal name valueType constant).1 :=
  findIdx?_concat missing (beq_self_eq_true name)

/-! ## Which names there are -/

/-- What steps of one kind bring, and no step takes away, is there exactly if it was there at the
start or one of these steps was taken. -/
theorem build_iff {ι : Type} {P : Module → Prop} (kind : ι → BuildStep)
    (brought : ∀ m step, P (BuildStep.apply m step) ↔ P m ∨ ∃ i, step = kind i) (m : Module)
    (steps : List BuildStep) : P (m.build steps) ↔ P m ∨ ∃ i, kind i ∈ steps := by
  induction steps generalizing m with
  | nil => simp [build]
  | cons step rest ih =>
      rw [build, ih, brought, or_assoc, ← exists_or]
      simp only [List.mem_cons, eq_comm]

theorem mem_names_apply_iff {m : Module} {step : BuildStep} {name : String} :
    name ∈ (step.apply m).heads.map (·.1) ↔
      name ∈ m.heads.map (·.1) ∨ ∃ type, step = .declare name type := by
  rw [heads_apply, List.map_append, List.mem_append]
  constructor
  · rintro (old | new)
    · exact .inl old
    · obtain ⟨⟨_, type⟩, added, rfl⟩ := List.mem_map.mp new
      exact .inr ⟨type, (BuildStep.addedHead?_eq_some_iff.mp (Option.mem_toList.mp added)).1⟩
  · rintro (old | ⟨type, rfl⟩)
    · exact .inl old
    · by_cases taken : name ∈ m.heads.map (·.1)
      · exact .inl taken
      · rw [BuildStep.addedHead?_eq_some_iff.mpr ⟨rfl, taken⟩]
        exact .inr List.mem_cons_self

theorem mem_names_build_iff {m : Module} {steps : List BuildStep} {name : String} :
    name ∈ (m.build steps).heads.map (·.1) ↔
      name ∈ m.heads.map (·.1) ∨ ∃ type, .declare name type ∈ steps := by
  exact build_iff (P := fun m => name ∈ m.heads.map (·.1)) (.declare name)
    (fun _ _ => mem_names_apply_iff) m steps

theorem mem_globalNames_apply_iff {m : Module} {step : BuildStep} {name : String} :
    name ∈ (step.apply m).globals.map (·.name) ↔
      name ∈ m.globals.map (·.name) ∨
        ∃ valueType constant, step = .addGlobal name valueType constant := by
  rw [globals_apply, List.map_append, List.mem_append]
  refine or_congr_right ?_
  cases step with
  | addGlobal other valueType constant => simp [BuildStep.addedGlobal?, eq_comm]
  | _ => simp [BuildStep.addedGlobal?]

theorem mem_globalNames_build_iff {m : Module} {steps : List BuildStep} {name : String} :
    name ∈ (m.build steps).globals.map (·.name) ↔
      name ∈ m.globals.map (·.name) ∨
        ∃ valueType constant, .addGlobal name valueType constant ∈ steps := by
  have run := build_iff (P := fun m => name ∈ m.globals.map (·.name))
    (fun (i : TypeId × Bool) => .addGlobal name i.1 i.2)
    (fun _ _ => mem_globalNames_apply_iff.trans (by rw [Prod.exists])) m steps
  rwa [Prod.exists] at run

/-- No head is appended whose name is there. -/
theorem nodup_names_apply {m : Module} (unique : (m.heads.map (·.1)).Nodup) (step : BuildStep) :
    ((step.apply m).heads.map (·.1)).Nodup := by
  rw [heads_apply, List.map_append]
  cases added : step.addedHead? m with
  | none => rwa [Option.toList_none, List.map_nil, List.append_nil]
  | some head =>
      obtain ⟨-, free⟩ := BuildStep.addedHead?_eq_some_iff.mp added
      refine List.nodup_append.mpr ⟨unique, List.pairwise_singleton .., ?_⟩
      rintro name old other new rfl
      rw [List.mem_singleton.mp new] at old
      exact free old

theorem nodup_names_build (name : String) (steps : List BuildStep) :
    ((build { name } steps).heads.map (·.1)).Nodup := by
  refine build_invariant (P := fun m : Module => (m.heads.map (·.1)).Nodup) ?_ ?_ steps
  · intro m step unique
    exact nodup_names_apply unique step
  · exact List.nodup_nil

/-- The first declaration of a name gave it this type. -/
def FirstDeclares (steps : List BuildStep) (name : String) (type : TypeId) : Prop :=
  ∃ before after, steps = before ++ .declare name type :: after ∧
    ∀ other, .declare name other ∉ before

/-- The induction is on the last step: it declares a new name, or leaves the old heads. -/
theorem firstDeclares_build (name : String) (steps : List BuildStep) :
    ∀ head ∈ (build { name } steps).heads, FirstDeclares steps head.1 head.2 := by
  induction steps using List.reverseRecOn with
  | nil =>
      intro head member
      cases member
  | append_singleton steps step ih =>
      rintro ⟨found, type⟩ member
      rw [build_append, build, build, heads_apply, List.mem_append] at member
      rcases member with old | new
      · obtain ⟨before, after, e, first⟩ := ih _ old
        refine ⟨before, after ++ [step], ?_, first⟩
        rw [e, List.append_assoc, List.cons_append]
      · obtain ⟨rfl, free⟩ := BuildStep.addedHead?_eq_some_iff.mp (Option.mem_toList.mp new)
        refine ⟨steps, [], rfl, ?_⟩
        intro other declared
        exact free (mem_names_build_iff.mpr (.inr ⟨other, declared⟩))

/-! ## How many symbols there are -/

theorem length_build_le (m : Module) (steps : List BuildStep) :
    (m.build steps).heads.length ≤ m.heads.length + steps.length ∧
      (m.build steps).globals.length ≤ m.globals.length + steps.length := by
  induction steps generalizing m with
  | nil => exact ⟨Nat.le_refl _, Nat.le_refl _⟩
  | cons step rest ih =>
      obtain ⟨functions, globals⟩ := ih (step.apply m)
      have head : (step.addedHead? m).toList.length ≤ 1 := Option.length_toList_le
      have global : (step.addedGlobal? m).toList.length ≤ 1 := Option.length_toList_le
      rw [heads_apply, List.length_append] at functions
      rw [globals_apply, List.length_append] at globals
      rw [build, List.length_cons]
      omega

/-! ## Blocks -/

theorem appendBlock_of_some {m : Module} {id : FunctionId} {f : Function}
    (there : m.function? id = some f) (block : Block) :
    m.appendBlock id block =
      { m with functions := m.functions.set id { f with blocks := f.blocks ++ [block] } } := by
  have found : m.functions[id]? = some f := there
  rw [appendBlock, List.modify_eq_set_getElem?, found]
  rfl

theorem appendBlock_of_none {m : Module} {id : FunctionId} (outside : m.function? id = none)
    (block : Block) : m.appendBlock id block = m := by
  have missing : m.functions[id]? = none := outside
  rw [appendBlock, List.modify_eq_set_getElem?, missing]
  rfl

/-! ## Whole runs -/

/-- What is known of the symbols of a module that a run of steps has made. -/
structure Symbols (name : String) (steps : List BuildStep) (m : Module) : Prop where
  unique : (m.functions.map (·.name)).Nodup
  undeclared_iff : ∀ n, m.functionByName? n = none ↔ ∀ type, .declare n type ∉ steps
  /-- The first declaration of a name and every later one answer with the place of the name. -/
  declared : ∀ before n type after, steps = before ++ .declare n type :: after →
    m.functionByName? n = some ((build { name } before).declareFunction n type).1
  /-- That place has the name, and the type of its first declaration. -/
  denotes : ∀ n id, m.functionByName? n = some id →
    ∃ f, m.function? id = some f ∧ f.name = n ∧ FirstDeclares steps n f.type
  absent_iff : ∀ n, m.globalByName? n = none ↔
    ∀ valueType constant, .addGlobal n valueType constant ∉ steps
  /-- A global stands where it was added. -/
  added : ∀ before n valueType constant after,
    steps = before ++ .addGlobal n valueType constant :: after →
    ∃ symbolType, m.types.shape? symbolType = some (.pointer valueType 0) ∧
      m.global? ((build { name } before).addGlobal n valueType constant).1 =
        some ⟨n, valueType, symbolType, constant⟩
  /-- A name finds the first global that was given it. -/
  earliest : ∀ before n valueType constant after,
    steps = before ++ .addGlobal n valueType constant :: after →
    (∀ valueType constant, .addGlobal n valueType constant ∉ before) →
    m.globalByName? n = some ((build { name } before).addGlobal n valueType constant).1
  /-- Whatever a part of the run has made, the whole run has kept. -/
  kept : ∀ before after, steps = before ++ after → (build { name } before).Keeps m
  appended : ∀ id f block, m.function? id = some f → m.appendBlock id block =
    { m with functions := m.functions.set id { f with blocks := f.blocks ++ [block] } }
  outside : ∀ id block, m.functions.length ≤ id → m.appendBlock id block = m
  /-- Up to this many steps, a place is told by its 32-bit word. -/
  word : steps.length ≤ 4294967296 →
    (∀ id < m.functions.length, (UInt32.ofNat id).toNat = id) ∧
    ∀ id < m.globals.length, (UInt32.ofNat id).toNat = id

section Run

variable {name : String} {before after : List BuildStep}

theorem names_eq (m : Module) : m.functions.map (·.name) = m.heads.map (·.1) := by
  rw [heads, List.map_map]
  rfl

theorem functionByName?_of_declared (n : String) (type : TypeId) :
    (build { name } (before ++ .declare n type :: after)).functionByName? n =
      some ((build { name } before).declareFunction n type).1 := by
  rw [build_append, build]
  exact (keeps_build _ after).functionByName? (functionByName?_declareFunction _ n type)

theorem global?_of_added (n : String) (valueType : TypeId) (constant : Bool) :
    ∃ symbolType, (build { name } (before ++ .addGlobal n valueType constant :: after)).global?
      ((build { name } before).addGlobal n valueType constant).1 =
        some ⟨n, valueType, symbolType, constant⟩ := by
  rw [build_append, build]
  exact ⟨_, (keeps_build _ after).global? (global?_addGlobal _ n valueType constant)⟩

theorem globalByName?_of_added {n : String}
    (first : ∀ valueType constant, .addGlobal n valueType constant ∉ before)
    (valueType : TypeId) (constant : Bool) :
    (build { name } (before ++ .addGlobal n valueType constant :: after)).globalByName? n =
      some ((build { name } before).addGlobal n valueType constant).1 := by
  have missing : (build { name } before).globalByName? n = none := by
    rw [globalByName?, findIdx?_name_eq_none_iff, mem_globalNames_build_iff]
    rintro (start | ⟨valueType, constant, added⟩)
    · cases start
    · exact first valueType constant added
  rw [build_append, build]
  exact (keeps_build _ after).globalByName? (globalByName?_addGlobal missing valueType constant)

end Run

/-- Whatever steps made a module: its functions have different names, a name finds what was
declared or added under it first, and every place that a step has answered with still stands
for what it stood for then. -/
theorem symbols_keep_their_places (name : String) (steps : List BuildStep) :
    Symbols name steps (build { name } steps) where
  unique := by
    rw [names_eq]
    exact nodup_names_build name steps
  undeclared_iff n := by
    rw [functionByName?_eq_none_iff, mem_names_build_iff]
    simp [heads]
  declared := by
    rintro before n type after rfl
    exact functionByName?_of_declared n type
  denotes n id found := by
    obtain ⟨f, there, rfl⟩ := exists_function_of_functionByName? found
    refine ⟨f, there, rfl, firstDeclares_build name steps f.head ?_⟩
    exact List.mem_map_of_mem (List.mem_of_getElem? there)
  absent_iff n := by
    rw [globalByName?, findIdx?_name_eq_none_iff, mem_globalNames_build_iff]
    simp
  added := by
    rintro before n valueType constant after rfl
    obtain ⟨symbolType, there⟩ := @global?_of_added name before after n valueType constant
    exact ⟨symbolType, pointsToValue_build name _ _ (List.mem_of_getElem? there), there⟩
  earliest := by
    rintro before n valueType constant after rfl first
    exact globalByName?_of_added first valueType constant
  kept := by
    rintro before after rfl
    rw [build_append]
    exact keeps_build _ after
  appended id f block there := appendBlock_of_some there block
  outside id block beyond := appendBlock_of_none (List.getElem?_eq_none beyond) block
  word few := by
    have small : ∀ id < steps.length, (UInt32.ofNat id).toNat = id := by
      intro id below
      exact UInt32.toNat_ofNat_of_lt' (Nat.lt_of_lt_of_le below few)
    obtain ⟨functions, globals⟩ := length_build_le { name } steps
    rw [heads, List.length_map, heads, List.map_nil, List.length_nil, Nat.zero_add] at functions
    rw [List.length_nil, Nat.zero_add] at globals
    constructor
    · intro id below
      exact small id (Nat.lt_of_lt_of_le below functions)
    · intro id below
      exact small id (Nat.lt_of_lt_of_le below globals)

/-- A name that is declared again with another type, and one that two globals have. -/
def renewed : List BuildStep :=
  [.declare "main" 0, .addGlobal "table" 0 true, .declare "main" 4, .addGlobal "table" 4 false,
   .append 0 ⟨"entry", []⟩, .append 9 ⟨"entry", []⟩]

example : (build { name := "symbols" } renewed).functions = [⟨"main", 0, [⟨"entry", []⟩]⟩] ∧
    (build { name := "symbols" } renewed).globalByName? "table" = some 0 ∧
    (build { name := "symbols" } renewed).globals.length = 2 := by
  decide

end Module

end ShaderReport
