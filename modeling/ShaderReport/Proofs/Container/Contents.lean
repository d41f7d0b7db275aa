/-
# What a container holds, as named payloads

A parsed container is a table of places.  Whoever reads it wants the named payloads
that stand there, in table order (`Container.pairs`), and of those mostly the first
one of a name.

"The first payload of a name" is said in three ways:

    IsFirst parts tag payload     on the list itself, without any search
    first? parts tag              by searching the list
    c.payload? tag                by searching the parts of a container

`first?_eq_some_iff` and `payload?_eq` tie them together.  `SameFirst xs ys tag`
compares two lists at one name, and is equality of the two searches
(`sameFirst_iff`); it is all that can be seen of a container through one name.

The last section is about built containers: what was given to `build` is what the
container holds, as long as the list is within the limits of the format
(`Buildable`).
-/
import Mathlib.Algebra.Order.BigOperators.Group.List
import Mathlib.Algebra.Order.Group.Nat
import ShaderReport.Proofs.Container.RoundTrip

namespace ShaderReport.Container

/-! ## The first payload of a name -/

/-- `payload` is the first one of its name: there is none of that name before it. -/
def IsFirst (parts : List (Tag × Bytes)) (tag : Tag) (payload : Bytes) : Prop :=
  ∃ before after, parts = before ++ (tag, payload) :: after ∧ ∀ p ∈ before, p.1 ≠ tag

/-- No payload has the name. -/
def Lacks (parts : List (Tag × Bytes)) (tag : Tag) : Prop := ∀ p ∈ parts, p.1 ≠ tag

def first? (parts : List (Tag × Bytes)) (tag : Tag) : Option Bytes :=
  (parts.find? (·.1 == tag)).map (·.2)

theorem first?_eq_some_iff {parts : List (Tag × Bytes)} {tag : Tag} {payload : Bytes} :
    first? parts tag = some payload ↔ IsFirst parts tag payload := by
  constructor
  · intro h
    obtain ⟨p, found, rfl⟩ := Option.map_eq_some_iff.mp h
    obtain ⟨named, before, after, split, others⟩ := List.find?_eq_some_iff_append.mp found
    have name : p.1 = tag := by simpa using named
    refine ⟨before, after, ?_, ?_⟩
    · rw [split, ← name]
    · intro q hq
      simpa using others q hq
  · rintro ⟨before, after, rfl, others⟩
    refine Option.map_eq_some_iff.mpr ⟨(tag, payload), ?_, rfl⟩
    refine List.find?_eq_some_iff_append.mpr ⟨by simp, before, after, rfl, ?_⟩
    intro q hq
    simpa using others q hq

theorem first?_eq_none_iff {parts : List (Tag × Bytes)} {tag : Tag} :
    first? parts tag = none ↔ Lacks parts tag := by
  simp [first?, Lacks]

theorem exists_isFirst {parts : List (Tag × Bytes)} {tag : Tag} (h : ¬ Lacks parts tag) :
    ∃ payload, IsFirst parts tag payload := by
  cases found : first? parts tag with
  | none => exact absurd (first?_eq_none_iff.mp found) h
  | some payload => exact ⟨payload, first?_eq_some_iff.mp found⟩

theorem IsFirst.not_lacks {parts : List (Tag × Bytes)} {tag : Tag} {payload : Bytes}
    (h : IsFirst parts tag payload) : ¬ Lacks parts tag := by
  obtain ⟨before, after, rfl, -⟩ := h
  intro none
  exact none (tag, payload) (by simp) rfl

/-- Neither list has a payload of the name, or their first ones are equal. -/
def SameFirst (xs ys : List (Tag × Bytes)) (tag : Tag) : Prop :=
  (Lacks xs tag ∧ Lacks ys tag) ∨ ∃ payload, IsFirst xs tag payload ∧ IsFirst ys tag payload

theorem sameFirst_iff {xs ys : List (Tag × Bytes)} {tag : Tag} :
    SameFirst xs ys tag ↔ first? xs tag = first? ys tag := by
  constructor
  · rintro (⟨hx, hy⟩ | ⟨payload, hx, hy⟩)
    · rw [first?_eq_none_iff.mpr hx, first?_eq_none_iff.mpr hy]
    · rw [first?_eq_some_iff.mpr hx, first?_eq_some_iff.mpr hy]
  · intro same
    cases found : first? xs tag with
    | none =>
        rw [found] at same
        exact Or.inl ⟨first?_eq_none_iff.mp found, first?_eq_none_iff.mp same.symm⟩
    | some payload =>
        rw [found] at same
        exact Or.inr ⟨payload, first?_eq_some_iff.mp found, first?_eq_some_iff.mp same.symm⟩

/-! ## Leaving a name out -/

/-- The list without the payloads of one name. -/
def without (tag : Tag) (parts : List (Tag × Bytes)) : List (Tag × Bytes) :=
  parts.filter (·.1 ≠ tag)

theorem first?_without_self (tag : Tag) (parts : List (Tag × Bytes)) :
    first? (without tag parts) tag = none := by
  rw [first?_eq_none_iff]
  intro p hp
  simpa using (List.mem_filter.mp hp).2

theorem first?_without_of_ne {tag other : Tag} (h : other ≠ tag) (parts : List (Tag × Bytes)) :
    first? (without tag parts) other = first? parts other := by
  have same : (fun p : Tag × Bytes => decide (decide (p.1 ≠ tag) = true ∧ (p.1 == other) = true)) =
      fun p => p.1 == other := by
    funext p
    by_cases hp : p.1 = other
    · simp [hp, h]
    · simp [hp]
  rw [first?, without, List.find?_filter, same, first?]

/-! ## The parts of a container -/

/-- The payloads with their names, in table order. -/
def pairs (c : Container) : List (Tag × Bytes) := c.parts.map fun p => (p.tag, c.payload p)

theorem payload?_eq (c : Container) (tag : Tag) : c.payload? tag = first? c.pairs tag := by
  rw [first?, pairs, ← find?_pairs, Option.map_map]
  rfl

theorem payload?_eq_of_sameFirst {c d : Container} {tag : Tag}
    (h : SameFirst c.pairs d.pairs tag) : c.payload? tag = d.payload? tag := by
  rw [payload?_eq, payload?_eq]
  exact sameFirst_iff.mp h

/-- The named payloads of the container that a byte string holds. -/
def partsOf (b : Bytes) : List (Tag × Bytes) := (ofBytes b).pairs

/-! ## The three answers to an input

An input that does not announce a container is not looked at any further; of one
that does, the format decides. -/

theorem parse_eq_ok_iff_wellFormed {b : Bytes} {c : Container} :
    parse b = .ok c ↔ WellFormed b ∧ c = ofBytes b := by
  constructor
  · intro h
    exact ⟨(parse_ok_iff_wellFormed b).mp ⟨c, h⟩, (parse_eq_ok_iff.mp h).2.2⟩
  · rintro ⟨formed, rfl⟩
    obtain ⟨d, parsed⟩ := (parse_ok_iff_wellFormed b).mpr formed
    rw [parsed, (parse_eq_ok_iff.mp parsed).2.2]

theorem parse?_of_announced {b : Bytes} (h : b.take 4 = Tag.container.toBytes) :
    parse? b = (parse b).map some := by
  rw [parse?, hasMagic, h, if_pos (beq_self_eq_true _)]

theorem parse?_eq_none_iff {b : Bytes} :
    parse? b = .ok none ↔ b.take 4 ≠ Tag.container.toBytes := by
  constructor
  · intro h announced
    rw [parse?_of_announced announced] at h
    cases parsed : parse b with
    | error fault =>
        rw [parsed] at h
        cases h
    | ok c =>
        rw [parsed] at h
        cases h
  · intro h
    rw [parse?, hasMagic, if_neg (by simpa using h)]

theorem parse?_eq_error_iff {b : Bytes} {fault : ContainerFault} :
    parse? b = .error fault ↔ b.take 4 = Tag.container.toBytes ∧ parse b = .error fault := by
  by_cases announced : b.take 4 = Tag.container.toBytes
  · rw [parse?_of_announced announced]
    cases parse b with
    | error found => simp [Except.map, announced]
    | ok c => simp [Except.map]
  · rw [parse?_eq_none_iff.mpr announced]
    simp [announced]

theorem parse?_eq_some_iff {b : Bytes} {c : Container} :
    parse? b = .ok (some c) ↔ WellFormed b ∧ c = ofBytes b := by
  rw [← parse_eq_ok_iff_wellFormed]
  by_cases announced : b.take 4 = Tag.container.toBytes
  · rw [parse?_of_announced announced]
    cases parse b with
    | error fault => simp [Except.map]
    | ok d => simp [Except.map]
  · rw [parse?_eq_none_iff.mpr announced]
    constructor
    · intro h
      cases h
    · intro h
      exact absurd (headerFits_of_parse h).magic announced

/-! ## Built containers -/

/-- The limits of the format: the number of parts, and a size of 32 bits. -/
structure Buildable (parts : List (Tag × Bytes)) : Prop where
  few : parts.length ≤ 4096
  small : 32 + (parts.map fun part => 12 + part.2.length).sum < 4294967296

instance (parts : List (Tag × Bytes)) : Decidable (Buildable parts) :=
  decidable_of_iff (parts.length ≤ 4096 ∧
    32 + (parts.map fun part => 12 + part.2.length).sum < 4294967296)
    ⟨fun h => ⟨h.1, h.2⟩, fun h => ⟨h.few, h.small⟩⟩

theorem Buildable.without {parts : List (Tag × Bytes)} (h : Buildable parts) (tag : Tag) :
    Buildable (without tag parts) := by
  have kept : (Container.without tag parts).Sublist parts := List.filter_sublist
  have lighter := (kept.map fun part => 12 + part.2.length).sum_le_sum (fun _ _ => Nat.zero_le _)
  refine ⟨Nat.le_trans kept.length_le h.few, ?_⟩
  exact Nat.lt_of_le_of_lt (Nat.add_le_add_left lighter 32) h.small

theorem Buildable.parse?_build {parts : List (Tag × Bytes)} (h : Buildable parts) :
    parse? (build parts) = .ok (some (ofBytes (build parts))) := by
  have small := h.small
  rw [← bodyLength_eq_sum] at small
  exact parse?_eq_some_iff.mpr (parse_eq_ok_iff_wellFormed.mp (parse_build_eq small h.few))

theorem Buildable.pairs_build {parts : List (Tag × Bytes)} (h : Buildable parts) :
    (ofBytes (build parts)).pairs = parts := by
  have small := h.small
  rw [← bodyLength_eq_sum] at small
  exact readBack_parts small

end ShaderReport.Container
