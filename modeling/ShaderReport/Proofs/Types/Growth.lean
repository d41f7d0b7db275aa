/-
# Tables that grow

Requests only ever append.  So a table that a run makes out of another begins with the
other one (`grows_run`), and whatever is known of a type that was there already is what
was known before.

For a value that the one pass over the table computes this needs no more than that the
pass comes to the old types first (`Grows.fold`).  A question that goes from a type to
the types inside it, as `matrixElement?` and `measure?` do, stays among the old ones
because components stand before the types made from them.
-/
import ShaderReport.Proofs.Types.Measure

namespace ShaderReport.TypeTable

/-- A table that begins with another one. -/
def Grows (t t' : TypeTable) : Prop := ∃ later, t'.shapes = t.shapes ++ later

theorem grows_refl (t : TypeTable) : t.Grows t := ⟨[], (List.append_nil _).symm⟩

theorem grows_intern {t t' : TypeTable} (h : t.Grows t') (s : Shape) :
    t.Grows (t'.intern s).2 := by
  rcases t'.intern_cases s with ⟨_, _, e⟩ | ⟨_, e⟩
  · rw [e]
    exact h
  · obtain ⟨later, hl⟩ := h
    rw [e]
    refine ⟨later ++ [s], ?_⟩
    rw [hl, List.append_assoc]

theorem grows_run {t : TypeTable} {more : List Request} (h : t.Admits more) :
    t.Grows (t.run more) := by
  refine run_keeps ?_ t.grows_refl h
  intro t' s old _
  exact grows_intern old s

theorem ordered_run {t : TypeTable} (ht : t.Ordered) {more : List Request} (h : t.Admits more) :
    (t.run more).Ordered :=
  run_keeps (fun _ _ => ordered_intern) ht h

namespace Grows

variable {t t' : TypeTable} (grows : t.Grows t')
include grows

theorem size_le : t.size ≤ t'.size := by
  obtain ⟨later, e⟩ := grows
  rw [size, size, e, List.length_append]
  exact Nat.le_add_right _ _

section Old

variable {id : TypeId} (h : id < t.size)
include h

theorem shape? : t'.shape? id = t.shape? id := by
  obtain ⟨later, e⟩ := grows
  rw [TypeTable.shape?, e, List.getElem?_append_left h]
  rfl

theorem fold {α : Type} [Inhabited α] (step : TypeId → Shape → (TypeId → α) → α) :
    t'.fold step id = t.fold step id := by
  obtain ⟨later, e⟩ := grows
  obtain ⟨shapes⟩ := t'
  obtain rfl : shapes = t.shapes ++ later := e
  exact fold_append step t.shapes later h

theorem text : t'.text id = t.text id := grows.fold h _

theorem spine : t'.spine id = t.spine id := grows.fold h _

theorem stripArrays : t'.stripArrays id = t.stripArrays id := by
  rw [TypeTable.stripArrays, grows.spine h]
  rfl

theorem extent : t'.extent id = t.extent id := grows.fold h _

theorem isStruct : t'.isStruct id = t.isStruct id := by
  rw [TypeTable.isStruct, grows.shape? h]
  rfl

theorem structFields : t'.structFields id = t.structFields id := by
  rw [TypeTable.structFields, grows.shape? h]
  rfl

theorem structName? : t'.structName? id = t.structName? id := by
  rw [TypeTable.structName?, grows.shape? h]
  rfl

theorem vectorElement? : t'.vectorElement? id = t.vectorElement? id := by
  rw [TypeTable.vectorElement?, grows.shape? h]
  rfl

theorem isMatrix : t'.isMatrix id = t.isMatrix id := by
  rw [TypeTable.isMatrix, grows.structName? h]
  rfl

/-- The rows of a matrix struct and their element stand before it. -/
theorem matrixElement? (ht : t.Ordered) : t'.matrixElement? id = t.matrixElement? id := by
  unfold TypeTable.matrixElement?
  rw [grows.isMatrix h, grows.structFields h]
  split
  · split
    · rename_i storage fields
      have older : storage < id := structFields_lt ht (fields ▸ List.mem_cons_self)
      have inTable : storage < t.size := Nat.lt_trans older h
      have rows : t'.arrayElement? storage = t.arrayElement? storage := by
        rw [arrayElement?, grows.shape? inTable]
        rfl
      rw [rows]
      cases hrow : t.arrayElement? storage with
      | none => rfl
      | some row => exact grows.vectorElement? (Nat.lt_trans (arrayElement?_lt ht hrow) inTable)
    · rfl
  · rfl

/-- Every question about sizes goes the same way, and ends in the same way if it ends. -/
theorem measure? (ht : t.Ordered) (fit : Nat → Option Nat) (depth : Nat) (aspect : Aspect) :
    t'.measure? fit depth aspect id = t.measure? fit depth aspect id := by
  induction depth generalizing aspect id with
  | zero => rfl
  | succ depth ih =>
      obtain ⟨s, hs⟩ := exists_shape? h
      rw [TypeTable.measure?, TypeTable.measure?, grows.shape? h, hs]
      refine Measure.answer_congr fit ?_ fun a _ => ih h a
      intro c hc a
      exact ih (Nat.lt_trans (ht id s hs c hc) h) a

end Old

end Grows

end ShaderReport.TypeTable
