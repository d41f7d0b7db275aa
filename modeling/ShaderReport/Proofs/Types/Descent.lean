/-
# Recursions that end

A value of a type can be had without going through the whole table: one asks for the
values of those other types that it is made from.  `Recursion` is such a rule, with the
places it calls itself for written down.  That these are all it needs is part of the
rule, so none can be left out.

`run?` carries a recursion out with at most `depth` calls waiting for one another.  If
all calls go to smaller places, `id + 1` of them are enough for the type at `id`, and
the answer is the one that the pass over the table finds (`run?_eq`).

The rules here are those for array levels and for the text of a type.  The sizes do not
have this form, because they are asked for one number at a time (`measure?`).
-/
import Mathlib.Data.List.Basic
import ShaderReport.Proofs.Types.Built

namespace ShaderReport

/-- A value of a type, made from the values of the types it calls for. -/
structure Recursion (α : Type) where
  calls : TypeId → Shape → List TypeId
  step : TypeId → Shape → (TypeId → α) → α
  /-- Only what was called for matters. -/
  step_congr : ∀ {id s below below'}, (∀ c ∈ calls id s, below c = below' c) →
    step id s below = step id s below'

/-- What `f` makes of the answers to some calls; nothing, if one of them is not answered. -/
def answered {α β : Type} [Inhabited α] (ask : TypeId → Option α) (calls : List TypeId)
    (f : (TypeId → α) → β) : Option β :=
  if ∀ c ∈ calls, (ask c).isSome then some (f fun c => (ask c).getD default) else none

theorem answered_eq {α β : Type} [Inhabited α] {ask : TypeId → Option α} {calls : List TypeId}
    {f : (TypeId → α) → β} {value : TypeId → α} (h : ∀ c ∈ calls, ask c = some (value c))
    (congr : ∀ below, (∀ c ∈ calls, below c = value c) → f below = f value) :
    answered ask calls f = some (f value) := by
  have all : ∀ c ∈ calls, (ask c).isSome := by
    intro c hc
    rw [h c hc]
    rfl
  have same : ∀ c ∈ calls, (ask c).getD default = value c := by
    intro c hc
    rw [h c hc]
    rfl
  rw [answered, if_pos all, congr _ same]

namespace Recursion

variable {α : Type} [Inhabited α] (r : Recursion α) (t : TypeTable)

/-- The value of the type at a place, with at most `depth` calls waiting for one another. -/
def run? : (depth : Nat) → TypeId → Option α
  | 0, _ => none
  | depth + 1, id => (t.shape? id).bind fun s => answered (run? depth) (r.calls id s) (r.step id s)

/-- All calls go to smaller places. -/
def Descends : Prop := ∀ id s, t.shape? id = some s → ∀ c ∈ r.calls id s, c < id

variable {r t}

/-- The pass over the table obeys the recursion. -/
theorem fold_eq_step (h : r.Descends t) {id : TypeId} {s : Shape} (hs : t.shape? id = some s) :
    t.fold r.step id = r.step id s (t.fold r.step) := by
  refine TypeTable.fold_eq_of_congr hs ?_
  intro below agree
  exact r.step_congr fun c hc => agree c (h id s hs c hc)

theorem run?_eq (h : r.Descends t) {id depth : Nat} (inTable : id < t.size) (deep : id < depth) :
    r.run? t depth id = some (t.fold r.step id) := by
  induction depth generalizing id with
  | zero => exact absurd deep (Nat.not_lt_zero _)
  | succ depth ih =>
      obtain ⟨s, hs⟩ := TypeTable.exists_shape? inTable
      rw [run?, hs, Option.bind_some, fold_eq_step h hs]
      refine answered_eq ?_ fun _ => r.step_congr
      -- a call has one less to spend, and a smaller place to spend it on
      intro c hc
      have smaller : c < id := h id s hs c hc
      exact ih (Nat.lt_trans smaller inTable)
        (Nat.lt_of_lt_of_le smaller (Nat.le_of_lt_succ deep))

end Recursion

/-! ## Array levels -/

theorem mem_components_of_arrayElement? {s : Shape} {element : TypeId}
    (h : s.arrayElement? = some element) : element ∈ s.components := by
  cases s with
  | array e length =>
      obtain rfl : e = element := Option.some.inj h
      exact List.mem_cons_self
  | _ => cases h

/-- An array calls for its element. -/
def levels : Recursion TypeTable.Spine where
  calls _ s := s.arrayElement?.toList
  step id s below :=
    match s with
    | .array element length => ⟨length :: (below element).lengths, (below element).element⟩
    | _ => ⟨[], id⟩
  step_congr := by
    intro id s below below' agree
    cases s with
    | array element length => simp only [agree element List.mem_cons_self]
    | _ => rfl

theorem levels_run? {t : TypeTable} (ht : t.Ordered) {id depth : Nat} (inTable : id < t.size)
    (deep : id < depth) : levels.run? t depth id = some (t.spine id) := by
  refine Recursion.run?_eq ?_ inTable deep
  intro id s hs c hc
  exact ht id s hs c (mem_components_of_arrayElement? (Option.mem_toList.mp hc))

/-! ## Text -/

/-- The types that are spelled out in the text of a type. -/
def Shape.spelled : Shape → List TypeId
  | .struct (some _) _ => []
  | s => s.components

theorem Shape.text_congr {s : Shape} {below below' : TypeId → String}
    (agree : ∀ c ∈ s.spelled, below c = below' c) : s.text below = s.text below' := by
  cases s with
  | vector element length => simp only [text, agree element List.mem_cons_self]
  | array element length => simp only [text, agree element List.mem_cons_self]
  | pointer pointee space => simp only [text, agree pointee List.mem_cons_self]
  | function result parameters =>
      obtain ⟨head, tail⟩ := List.forall_mem_cons.mp agree
      simp only [text, head, List.map_congr_left tail]
  | struct name fields =>
      cases name with
      | some name => rfl
      | none =>
          have same : fields.map below = fields.map below' := List.map_congr_left agree
          rw [text, text, same]
  | _ => rfl

/-- The name of a named struct is there at once; every other type calls for its components. -/
def spelling : Recursion String where
  calls _ s := s.spelled
  step _ s below := s.text below
  step_congr := Shape.text_congr

theorem spelling_run? {t : TypeTable} (ht : t.Ordered) {id depth : Nat} (inTable : id < t.size)
    (deep : id < depth) : spelling.run? t depth id = some (t.text id) := by
  refine Recursion.run?_eq ?_ inTable deep
  intro id s hs c hc
  refine ht id s hs c ?_
  cases s with
  | struct name fields =>
      cases name with
      | some name => cases hc
      | none => exact hc
  | _ => exact hc

end ShaderReport
