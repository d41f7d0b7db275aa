/-
# Old types in a growing table

What a table says of a type never changes while requests come in, down to the text of a
struct's layout, and every recursion that starts at a type of the table ends.  Both rest
on the same fact, that components stand before the types made from them: a question
about a type only ever leads to types that are older still.

For layouts there is one more step.  In a table that has grown, a field of an old type
shows as what it showed as before (`formOf_of_grows`), so the layout of an old struct is
made from the same layouts, and these are older (`block_of_grows`).
-/
import ShaderReport.Proofs.Layout.Recursion
import ShaderReport.Proofs.Types.Growth

namespace ShaderReport

namespace Layout

section Grows

variable {t t' : TypeTable} (grows : t.Grows t') (ht : t.Ordered)
include grows ht

theorem matrixComponent_of_grows {id : TypeId} (h : id < t.size) :
    matrixComponent t' id = matrixComponent t id := by
  unfold matrixComponent
  rw [grows.vectorElement? h, grows.matrixElement? h ht]

theorem formOf_of_grows {type : TypeId} (h : type < t.size) (field : FieldFacts) :
    formOf t' type field = formOf t type field := by
  have inner : (t.spine type).element < t.size :=
    Nat.lt_of_le_of_lt (TypeTable.stripArrays_spec ht h).1 h
  have component : matrixComponent t (t.spine type).element < t.size :=
    Nat.lt_of_le_of_lt (matrixComponent_le ht _) inner
  unfold formOf
  rw [grows.isStruct h, grows.spine h]
  cases field.matrix with
  | none => simp only [grows.isStruct inner, grows.isMatrix inner]
  | some matrix =>
      simp only [matrixComponent_of_grows grows ht inner, grows.isStruct component,
        grows.isMatrix component]

theorem declaration_of_grows {type : TypeId} (h : type < t.size) (field : FieldFacts)
    (count : Nat) : declaration t' type field count = declaration t type field count := by
  have inner : t.stripArrays type < t.size :=
    Nat.lt_of_le_of_lt (TypeTable.stripArrays_spec ht h).1 h
  have length : t'.vectorLength? (t'.stripArrays type) = t.vectorLength? (t.stripArrays type) := by
    rw [grows.stripArrays h, TypeTable.vectorLength?, grows.shape? inner]
    rfl
  rw [declaration, typeText, length]
  rfl

theorem fieldWith_of_grows {type : TypeId} (h : type < t.size) (below : TypeId → BlockPrinter)
    (field : FieldFacts) (place : Placement) (size : Nat) :
    fieldWith t' below type field place size = fieldWith t below type field place size := by
  unfold fieldWith
  rw [formOf_of_grows grows ht h]
  simp only [declaration_of_grows grows ht h]

theorem blockWith_of_grows (facts : LayoutFacts) {id : TypeId} (h : id < t.size)
    (below : TypeId → BlockPrinter) : blockWith t' facts below id = blockWith t facts below id := by
  have known : usableFacts? t' facts id = usableFacts? t facts id := by
    rw [usableFacts?, grows.structFields h]
    rfl
  have room : t'.allocSize id = t.allocSize id := congrArg Extent.allocSize (grows.extent h)
  funext label place size
  unfold blockWith
  rw [known, room, grows.structName? h, grows.structFields h]
  cases usableFacts? t facts id with
  | none => rfl
  | some known =>
      have fields : ∀ x ∈ (t.structFields id).zip known.fields,
          fieldWith t' below x.1 x.2 place.inner 0 = fieldWith t below x.1 x.2 place.inner 0 := by
        intro x hx
        have older : x.1 < id := TypeTable.structFields_lt ht (List.of_mem_zip hx).1
        exact fieldWith_of_grows grows ht (Nat.lt_trans older h) below x.2 _ _
      simp only [List.flatMap_congr fields]

theorem block_of_grows (ht' : t'.Ordered) (facts : LayoutFacts) {id : TypeId} (h : id < t.size) :
    block t' facts id = block t facts id := by
  induction id using Nat.strongRecOn with
  | ind id ih =>
    have inTable : id < t'.size := Nat.lt_of_lt_of_le h grows.size_le
    -- each table's layouts obey the recursion, and for an old struct it is the same one
    rw [block_eq facts ht' inTable, block_eq facts ht h, blockWith_of_grows grows ht facts h]
    obtain ⟨s, hs⟩ := TypeTable.exists_shape? h
    refine (nesting t facts).step_congr (s := s) ?_
    intro c hc
    have older : c < id := nesting_descends facts ht id s hs c hc
    exact ih c older (Nat.lt_trans older h)

end Grows

end Layout

/-! ## Old types -/

/-- The recursions that start at a place end, and find what the pass over the table finds. -/
structure TypeTable.Ends (t : TypeTable) (id : Nat) : Prop where
  spine : ∀ depth, id < depth → levels.run? t depth id = some (t.spine id)
  text : ∀ depth, id < depth → spelling.run? t depth id = some (t.text id)
  room : ∀ depth aspect, 4 * id + 3 < depth → aspect ≠ .laneBits →
    t.measure? some depth aspect id = some ((t.extent id).get aspect)
  /-- Also where results that do not fit are changed. -/
  changedRoom : ∀ (wrap : Nat → Nat) depth aspect, 4 * id + 3 < depth →
    (t.measure? (fun n => some (wrap n)) depth aspect id).isSome
  block : ∀ facts depth, id < depth →
    (Layout.nesting t facts).run? t depth id = some (Layout.block t facts id)
  field : ∀ facts field place size depth, id < depth →
    Layout.field? t facts depth id field place size =
      some (Layout.field t facts id field place size)

/-- Two tables say the same of the type at a place. -/
structure TypeTable.SameAt (t t' : TypeTable) (id : TypeId) : Prop where
  shape : t.shape? id = t'.shape? id
  text : t.text id = t'.text id
  stripArrays : t.stripArrays id = t'.stripArrays id
  isMatrix : t.isMatrix id = t'.isMatrix id
  matrixElement : t.matrixElement? id = t'.matrixElement? id
  alignment : (t.extent id).alignment = (t'.extent id).alignment
  allocSize : t.allocSize id = t'.allocSize id
  /-- Also where results that do not fit are changed, or are no results. -/
  changedRoom : ∀ fit depth aspect,
    t.measure? fit depth aspect id = t'.measure? fit depth aspect id
  layout : ∀ facts label place size marker,
    (Layout.block t facts id label place size).map (·.text marker) =
      (Layout.block t' facts id label place size).map (·.text marker)

theorem TypeTable.Ordered.ends {t : TypeTable} (ht : t.Ordered) {id : Nat} (h : id < t.size) :
    t.Ends id where
  spine _ deep := levels_run? ht h deep
  text _ deep := spelling_run? ht h deep
  room _ _ deep ha := t.measure?_eq ht h deep (fun _ _ => rfl) ha
  changedRoom wrap _ aspect deep := t.measure?_isSome ht h deep wrap aspect
  block facts _ deep := Layout.nesting_run? facts ht h deep
  field facts field place size _ deep := Layout.field?_eq facts ht h deep field place size

theorem TypeTable.Grows.sameAt {t t' : TypeTable} (grows : t.Grows t') (ht : t.Ordered)
    (ht' : t'.Ordered) {id : TypeId} (h : id < t.size) : t'.SameAt t id where
  shape := grows.shape? h
  text := grows.text h
  stripArrays := grows.stripArrays h
  isMatrix := grows.isMatrix h
  matrixElement := grows.matrixElement? h ht
  alignment := congrArg Extent.alignment (grows.extent h)
  allocSize := congrArg Extent.allocSize (grows.extent h)
  changedRoom := grows.measure? h ht
  layout facts label place size marker := by
    rw [Layout.block_of_grows grows ht ht' facts h]

/-- In a table that requests have built, every component of a type has a smaller place, so
the recursions over types end; and no further run of requests changes what is known of a
type that is there. -/
theorem old_types_stay {t : TypeTable} (ht : t.Built) :
    (∀ id s, t.shape? id = some s → ∀ c ∈ s.components, c < id) ∧
    (∀ id < t.size, t.Ends id) ∧
    ∀ more, t.Admits more → ∀ id < t.size, (t.run more).SameAt t id := by
  have ordered := ht.ordered
  refine ⟨ordered, ?_, ?_⟩
  · intro id h
    exact ordered.ends h
  · intro more admits id h
    exact (TypeTable.grows_run admits).sameAt ordered (TypeTable.ordered_run ordered admits) h

/-- A scalar, a matrix and a struct of the two. -/
def sceneRequests : List Request :=
  [.shape .float, .matrix 0 2 3, .shape (.struct (some "Scene") [0, 3])]

/-- The matrix and the name of the struct once more, and one new type. -/
def laterRequests : List Request :=
  [.matrix 0 2 3, .shape (.struct (some "Scene") []), .shape (.array 4 5)]

theorem old_types_stay_scene :
    ((TypeTable.run {} sceneRequests).run laterRequests).size = 6 ∧
    ∀ id < 5, (TypeTable.run {} sceneRequests).Ends id ∧
      ((TypeTable.run {} sceneRequests).run laterRequests).SameAt
        (TypeTable.run {} sceneRequests) id := by
  have built : (TypeTable.run {} sceneRequests).Built := ⟨sceneRequests, by decide +kernel, rfl⟩
  have admits : (TypeTable.run {} sceneRequests).Admits laterRequests := by decide +kernel
  have size : (TypeTable.run {} sceneRequests).size = 5 := by decide +kernel
  obtain ⟨_, ends, stay⟩ := old_types_stay built
  refine ⟨by decide +kernel, ?_⟩
  intro id h
  rw [← size] at h
  exact ⟨ends id h, stay laterRequests admits id h⟩

end ShaderReport
