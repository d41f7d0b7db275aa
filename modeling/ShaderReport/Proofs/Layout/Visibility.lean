/-
# What a layout sees of the facts

Facts about a struct count only if they name as many fields as the struct has.  Facts
that do not are as good as none, and they hide what is below them: a layout goes on into
the fields of a struct only where its facts can be used.

`Reaches` is the set of structs that a layout comes to.  Of all the facts that are
stored, those of the structs in this set are the only ones that matter
(`block_eq_of_reaches`), and of these only whether and how they can be used.  Buffer
definitions look at facts in four places, and in all four through the same question, so
facts that cannot be used can be erased (`bufferLines_withFacts`).

A struct inside another one of which nothing can be used leaves a single line behind
(`field_hidden`).
-/
import ShaderReport.Proofs.Layout.Recursion
import ShaderReport.Report.Buffers

namespace ShaderReport

/-! ## Erasing facts -/

namespace LayoutFacts

/-- Forgets several structs. -/
def eraseStructs (f : LayoutFacts) (types : List TypeId) : LayoutFacts := types.foldl eraseStruct f

theorem struct?_eraseStruct (f : LayoutFacts) (type other : TypeId) :
    (f.eraseStruct type).struct? other = if other = type then none else f.struct? other := by
  rw [struct?, eraseStruct, List.find?_filter]
  by_cases same : other = type
  · rw [if_pos same, List.find?_eq_none]
    simp [same]
  · rw [if_neg same, struct?]
    congr 1
    funext s
    by_cases found : s.type = other
    · simp [found, same]
    · simp [found]

theorem struct?_eraseStructs (f : LayoutFacts) (types : List TypeId) (other : TypeId) :
    (f.eraseStructs types).struct? other = if other ∈ types then none else f.struct? other := by
  induction types generalizing f with
  | nil => rfl
  | cons type types ih =>
      have step : f.eraseStructs (type :: types) = (f.eraseStruct type).eraseStructs types := rfl
      rw [step, ih, struct?_eraseStruct]
      by_cases same : other = type
      · simp [same]
      · simp [same]

end LayoutFacts

namespace Layout

variable {t : TypeTable} {facts facts' : LayoutFacts}

/-- The structs of which there are facts, but more or fewer than there are fields. -/
def misfits (t : TypeTable) (facts : LayoutFacts) : List TypeId :=
  (facts.structs.map (·.type)).filter fun type =>
    (facts.struct? type).any fun known => known.fields.length ≠ (t.structFields type).length

/-- What is left after erasing them is what could be used before. -/
theorem struct?_erase_misfits (type : TypeId) :
    (facts.eraseStructs (misfits t facts)).struct? type = usableFacts? t facts type := by
  rw [LayoutFacts.struct?_eraseStructs, usableFacts?]
  cases stored : facts.struct? type with
  | none => simp
  | some known =>
      have listed : type ∈ facts.structs.map (·.type) := by
        have bears := List.find?_some stored
        exact List.mem_map.mpr ⟨known, List.mem_of_find?_eq_some stored, by simpa using bears⟩
      by_cases fits : known.fields.length = (t.structFields type).length
      · have kept : type ∉ misfits t facts := by simp [misfits, stored, fits]
        rw [if_neg kept, Option.filter_some, if_pos (by simpa using fits)]
      · have erased : type ∈ misfits t facts := by simp [misfits, listed, stored, fits]
        rw [if_pos erased, Option.filter_some, if_neg (by simpa using fits)]

theorem usableFacts?_erase_misfits (type : TypeId) :
    usableFacts? t (facts.eraseStructs (misfits t facts)) type = usableFacts? t facts type := by
  rw [usableFacts?, struct?_erase_misfits, usableFacts?, Option.filter_filter]
  simp

/-! ## The structs that a layout comes to -/

/-- The structs that the layout of a struct comes to: the struct itself, and from a struct
whose facts can be used those that its fields show as. -/
inductive Reaches (t : TypeTable) (facts : LayoutFacts) (root : TypeId) : TypeId → Prop
  | root : Reaches t facts root root
  | field {st type s : TypeId} {known : StructFacts} {field : FieldFacts} :
      Reaches t facts root st → usableFacts? t facts st = some known →
      (type, field) ∈ (t.structFields st).zip known.fields →
      (formOf t type field).struct? = some s → Reaches t facts root s

theorem mem_inside_iff {st s : TypeId} :
    s ∈ inside t facts st ↔ ∃ known type field, usableFacts? t facts st = some known ∧
      (type, field) ∈ (t.structFields st).zip known.fields ∧
      (formOf t type field).struct? = some s := by
  unfold inside
  cases usableFacts? t facts st with
  | none => simp
  | some known => simp [List.mem_flatMap, Option.mem_toList]

theorem Reaches.of_inside {root c s : TypeId} (inner : c ∈ inside t facts root)
    (h : Reaches t facts c s) : Reaches t facts root s := by
  induction h with
  | root =>
      obtain ⟨known, type, field, usable, member, shown⟩ := mem_inside_iff.mp inner
      exact .field .root usable member shown
  | field _ usable member shown ih => exact .field ih usable member shown

/-- Only the facts of the structs that a layout comes to matter to it. -/
theorem block_eq_of_reaches {root : TypeId}
    (agree : ∀ s, Reaches t facts root s → usableFacts? t facts' s = usableFacts? t facts s) :
    block t facts' root = block t facts root := by
  induction root using Nat.strongRecOn with
  | ind id ih =>
    rcases Nat.lt_or_ge id t.size with inTable | outside
    · obtain ⟨s, hs⟩ := TypeTable.exists_shape? inTable
      rw [block, block, TypeTable.fold_eq _ _ hs, TypeTable.fold_eq _ _ hs]
      have own : ∀ below, blockWith t facts' below id = blockWith t facts below id := by
        intro below
        funext label place size
        rw [blockWith, agree id .root, blockWith]
      rw [own]
      refine (nesting t facts).step_congr (s := s) ?_
      intro c called
      by_cases older : c < id
      · rw [if_pos older, if_pos older]
        exact ih c older fun s reached => agree s (reached.of_inside called)
      · rw [if_neg older, if_neg older]
    · rw [block, block, TypeTable.fold_of_size_le _ _ outside, TypeTable.fold_of_size_le _ _ outside]

/-! ## Structs of which nothing can be used -/

theorem block_hidden {s : TypeId} (inTable : s < t.size) (hidden : usableFacts? t facts s = none)
    (label : String) (place : Placement) (size : Nat) :
    block t facts s label place size = [.placeholder place.indent (t.allocSize s)] := by
  obtain ⟨shape, hs⟩ := TypeTable.exists_shape? inTable
  rw [block, TypeTable.fold_eq _ _ hs, blockWith, hidden]

theorem isStruct_of_formOf {type s : TypeId} {field : FieldFacts}
    (h : (formOf t type field).struct? = some s) : t.isStruct s := by
  have element : ∀ (id : TypeId) (count : Nat),
      (if t.isStruct id && !t.isMatrix id then Form.block id count else .leaf count).struct? =
        some s → t.isStruct s := by
    intro id count shown
    split at shown
    next plain =>
      cases shown
      exact (Bool.and_eq_true_iff.mp plain).1
    next => cases shown
  unfold formOf at h
  split at h
  next direct =>
    cases h
    exact (Bool.and_eq_true_iff.mp direct).1
  next =>
    cases matrix : field.matrix with
    | none =>
        rw [matrix] at h
        exact element _ _ h
    | some shape =>
        rw [matrix] at h
        exact element _ _ h

/-- A field that shows as a struct of which nothing can be used is one line. -/
theorem field_hidden {type s : TypeId} {field : FieldFacts}
    (shown : (formOf t type field).struct? = some s) (hidden : usableFacts? t facts s = none)
    (place : Placement) (size : Nat) :
    Layout.field t facts type field place size =
      [.placeholder place.indent (t.allocSize s)] := by
  have inTable := TypeTable.lt_size_of_isStruct (isStruct_of_formOf shown)
  unfold Layout.field fieldWith
  cases form : formOf t type field with
  | leaf count =>
      rw [form] at shown
      cases shown
  | block s' count =>
      rw [form] at shown
      cases shown
      exact block_hidden inTable hidden _ _ _

/-- The lines of a struct in front of its fields. -/
def head (t : TypeTable) (st : TypeId) (place : Placement) : List LayoutLine :=
  [.opening place.indent ((t.structName? st).getD ""), .brace place.indent, .blank]

/-- The lines of a struct behind its fields. -/
def foot (label : String) (place : Placement) (size : Nat) : List LayoutLine :=
  [.gap place.indent, .closing place.indent place.width label place.offset size, .blank]

/-- The lines of a field inside a struct. -/
def fieldLines (t : TypeTable) (facts : LayoutFacts) (place : Placement)
    (x : TypeId × FieldFacts) : List LayoutLine :=
  Layout.field t facts x.1 x.2 place.inner 0

theorem block_of_usable (ht : t.Ordered) {st : TypeId} {known : StructFacts}
    (usable : usableFacts? t facts st = some known) (inTable : st < t.size) (label : String)
    (place : Placement) (size : Nat) :
    block t facts st label place size = head t st place ++
      ((t.structFields st).zip known.fields).flatMap (fieldLines t facts place) ++
        foot label place size := by
  rw [block_eq facts ht inTable, blockWith, usable]
  rfl

theorem lt_size_of_mem_zip {st : TypeId} {fields : List FieldFacts} {x : TypeId × FieldFacts}
    (h : x ∈ (t.structFields st).zip fields) : st < t.size := by
  cases hs : t.shape? st with
  | none => simp [TypeTable.structFields, hs] at h
  | some shape => exact TypeTable.lt_size_of_shape? hs

/-- Between the fields around it, a struct of which nothing can be used is one line. -/
theorem block_around_hidden (ht : t.Ordered) {st type s : TypeId} {known : StructFacts}
    {before after : List (TypeId × FieldFacts)} {field : FieldFacts}
    (usable : usableFacts? t facts st = some known)
    (fields : (t.structFields st).zip known.fields = before ++ (type, field) :: after)
    (shown : (formOf t type field).struct? = some s) (hidden : usableFacts? t facts s = none)
    (label : String) (place : Placement) (size : Nat) :
    block t facts st label place size =
      head t st place ++ before.flatMap (fieldLines t facts place) ++
        [.placeholder (place.indent + 4) (t.allocSize s)] ++
        after.flatMap (fieldLines t facts place) ++ foot label place size := by
  have member : (type, field) ∈ (t.structFields st).zip known.fields := by
    rw [fields]
    exact List.mem_append_right _ List.mem_cons_self
  have line : fieldLines t facts place (type, field) =
      [.placeholder (place.indent + 4) (t.allocSize s)] := field_hidden shown hidden _ _
  rw [block_of_usable ht usable (lt_size_of_mem_zip member), fields, List.flatMap_append,
    List.flatMap_cons, line]
  simp only [List.append_assoc]

end Layout

/-! ## Buffers -/

namespace Module

/-- The module with other facts. -/
def withFacts (m : Module) (facts : LayoutFacts) : Module :=
  { m with shader := { m.shader with facts } }

section Buffers

variable {m : Module} {facts : LayoutFacts}
  (agree : ∀ type, Layout.usableFacts? m.types facts type =
    Layout.usableFacts? m.types m.shader.facts type)
include agree

theorem block_withFacts : Layout.block m.types facts = Layout.block m.types m.shader.facts := by
  funext type
  exact Layout.block_eq_of_reaches fun s _ => agree s

theorem structLines_withFacts (marker : Char) (type : TypeId) (label : String) (size : Nat) :
    (m.withFacts facts).structLines marker type label size =
      m.structLines marker type label size := by
  have same := block_withFacts agree
  rw [structLines, structLines, ← same]
  rfl

theorem describedLayout?_withFacts (b : Binding) :
    (m.withFacts facts).describedLayout? b = m.describedLayout? b := by
  have struct : (m.withFacts facts).layoutStruct? b = m.layoutStruct? b := rfl
  have known : ∀ type, Layout.usableFacts? (m.withFacts facts).types
      (m.withFacts facts).shader.facts type =
      Layout.usableFacts? m.types m.shader.facts type := agree
  simp only [describedLayout?, struct, known]

theorem constantBufferLines_withFacts (marker : Char) (b : ConstantBuffer) :
    (m.withFacts facts).constantBufferLines marker b = m.constantBufferLines marker b := by
  simp only [constantBufferLines, describedLayout?_withFacts agree, structLines_withFacts agree]

theorem textureBufferLines_withFacts (marker : Char) (v : View) :
    (m.withFacts facts).textureBufferLines marker v = m.textureBufferLines marker v := by
  simp only [textureBufferLines, describedLayout?_withFacts agree, structLines_withFacts agree]

theorem structuredBufferLines_withFacts (marker : Char) (v : View) :
    (m.withFacts facts).structuredBufferLines marker v = m.structuredBufferLines marker v := by
  have element : ∀ type, (m.withFacts facts).structElementLines marker type =
      m.structElementLines marker type := by
    intro type
    simp only [structElementLines, structLines_withFacts agree]
    simp only [withFacts, agree]
  have plain : (m.withFacts facts).plainElementLines marker v = m.plainElementLines marker v := by
    have struct : (m.withFacts facts).layoutStruct? v.binding = m.layoutStruct? v.binding := rfl
    simp only [plainElementLines, struct, Layout.field]
    simp only [withFacts, agree, block_withFacts agree]
  simp only [structuredBufferLines, element, plain]
  rfl

/-- The section on buffers depends on the facts only through what can be used of them. -/
theorem bufferLines_withFacts (marker : Char) :
    (m.withFacts facts).bufferLines marker = m.bufferLines marker := by
  have srvs : ∀ v, (m.withFacts facts).srvLines marker v = m.srvLines marker v := by
    intro v
    rw [srvLines, structuredBufferLines_withFacts agree, textureBufferLines_withFacts agree]
    rfl
  have uavs : ∀ v, (m.withFacts facts).uavLines marker v = m.uavLines marker v := by
    intro v
    rw [uavLines, structuredBufferLines_withFacts agree]
    rfl
  have constants := constantBufferLines_withFacts agree marker
  simp only [bufferLines, List.flatMap_congr fun v _ => srvs v,
    List.flatMap_congr fun v _ => uavs v, List.flatMap_congr fun b _ => constants b]
  rfl

end Buffers

end Module

/-- Facts that cannot be used are as good as none.

* Erasing them leaves the section on buffers as it is.
* The layout of a struct is the same under facts that agree on the structs it comes to.
* A field that shows as a struct without usable facts is one line among the lines of the
  other fields, and the line says how many bytes there are. -/
theorem unusable_as_absent (m : Module) :
    (∀ marker, (m.withFacts (m.shader.facts.eraseStructs
        (Layout.misfits m.types m.shader.facts))).bufferLines marker = m.bufferLines marker) ∧
    (∀ facts facts' root,
      (∀ s, Layout.Reaches m.types facts root s → facts'.struct? s = facts.struct? s) →
      Layout.block m.types facts' root = Layout.block m.types facts root) ∧
    (m.types.Built → ∀ facts st known before type field after s,
      Layout.usableFacts? m.types facts st = some known →
      (m.types.structFields st).zip known.fields = before ++ (type, field) :: after →
      (Layout.formOf m.types type field).struct? = some s →
      Layout.usableFacts? m.types facts s = none →
      ∀ label place size, Layout.block m.types facts st label place size =
        Layout.head m.types st place ++ before.flatMap (Layout.fieldLines m.types facts place) ++
          [.placeholder (place.indent + 4) (m.types.allocSize s)] ++
          after.flatMap (Layout.fieldLines m.types facts place) ++
          Layout.foot label place size) ∧
    ∀ marker indent size, (LayoutLine.placeholder indent size).text marker =
      Text.blanks indent ++ "[" ++ size.repr ++ " x i8] (type annotation not present)" := by
  refine ⟨?_, ?_, ?_, ?_⟩
  · intro marker
    exact Module.bufferLines_withFacts Layout.usableFacts?_erase_misfits marker
  · intro facts facts' root agree
    refine Layout.block_eq_of_reaches ?_
    intro s reached
    rw [Layout.usableFacts?, agree s reached, Layout.usableFacts?]
  · intro built facts st known before type field after s usable fields shown hidden
    exact Layout.block_around_hidden built.ordered usable fields shown hidden
  · intro marker indent size
    simp [LayoutLine.text, LayoutLine.untyped, LayoutLine.factsAbsent, String.append_assoc]

/-- A struct, a struct around it, and one around both of these. -/
def veiledRequests : List Request :=
  [.shape .float, .shape (.struct (some "Inner") [0]), .shape (.struct (some "Veil") [1]),
   .shape (.struct (some "Scene") [0, 2])]

/-- Facts for all three, of which those for the second one count too many fields. -/
def veiledFacts : LayoutFacts where
  structs :=
    [{ type := 1, fields := [{ name := "depth", component := .f32 }] },
     { type := 2, fields := [{ name := "inner" }, { name := "none" }] },
     { type := 3, fields := [{ name := "time", component := .f32 }, { name := "veil", offset := 16 }] }]

/-- A buffer of the outermost struct. -/
def veiledModule : Module where
  types := TypeTable.run {} veiledRequests
  globals := [{ name := "scene", valueType := 3, symbolType := 4, constant := true }]
  shader :=
    { constantBuffers :=
        [⟨{ resourceClass := .constantBuffer, kind := .constantBuffer, name := "scene",
            symbol := some 0 }, 32⟩]
      facts := veiledFacts }

theorem reaches_veiled {s : TypeId} (h : Layout.Reaches veiledModule.types veiledFacts 3 s) :
    s = 3 ∨ s = 2 := by
  have below : Layout.inside veiledModule.types veiledFacts 3 = [2] := by decide +kernel
  have veil : Layout.inside veiledModule.types veiledFacts 2 = [] := by decide +kernel
  induction h with
  | root => exact Or.inl rfl
  | field _ usable member shown ih =>
      have inner := Layout.mem_inside_iff.mpr ⟨_, _, _, usable, member, shown⟩
      rcases ih with rfl | rfl
      · rw [below] at inner
        exact Or.inr (List.mem_singleton.mp inner)
      · rw [veil] at inner
        cases inner

/-- The second struct is one line, and neither its facts nor those of the first one show. -/
theorem unusable_as_absent_veiled :
    Layout.misfits veiledModule.types veiledFacts = [2] ∧
    (∀ marker, (veiledModule.withFacts (veiledFacts.eraseStructs [2])).bufferLines marker =
      veiledModule.bufferLines marker) ∧
    Layout.block veiledModule.types (veiledFacts.eraseStruct 1) 3 =
      Layout.block veiledModule.types veiledFacts 3 ∧
    ∀ place, Layout.block veiledModule.types veiledFacts 3 "scene" place 32 =
      Layout.head veiledModule.types 3 place ++
        Layout.fieldLines veiledModule.types veiledFacts place
          (0, { name := "time", component := .f32 }) ++
        [.placeholder (place.indent + 4) 4] ++ Layout.foot "scene" place 32 := by
  have misfits : Layout.misfits veiledModule.types veiledFacts = [2] := by decide +kernel
  have built : veiledModule.types.Built := ⟨veiledRequests, by decide +kernel, rfl⟩
  have size : veiledModule.types.allocSize 2 = 4 := by decide +kernel
  obtain ⟨erased, unseen, hidden, -⟩ := unusable_as_absent veiledModule
  refine ⟨misfits, ?_, ?_, ?_⟩
  · intro marker
    have same := erased marker
    rwa [show Layout.misfits veiledModule.types veiledModule.shader.facts = [2] from misfits] at same
  · refine unseen veiledFacts _ 3 ?_
    intro s reached
    rcases reaches_veiled reached with rfl | rfl
    · rfl
    · rfl
  · intro place
    have line := hidden built veiledFacts 3 _ [(0, { name := "time", component := .f32 })] 2
      { name := "veil", offset := 16 } [] 2 rfl (by decide +kernel) (by decide +kernel)
      (by decide +kernel) "scene" place 32
    rw [size] at line
    simpa using line

end ShaderReport
