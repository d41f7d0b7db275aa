/-
# A type is known by its text

Types of one table read differently, as long as the names of structs are plain.

The argument reads a text from its end, where the last character says what a type is.
Read this way no type begins with another type, and the grammar has no left recursion:
behind the star of a pointer comes all of its pointee.  So `Unambiguous` can say of a
type that it is found again, with what stood in front of it, whatever other type of the
table one tries instead, and this follows for a type if it holds of its components
(`unambiguous_of_components`).

Two places need a second look.  A pointer into an address space ends in `(n)*`, and so
could a pointer to a function; but then `n` would be the last parameter, and no type is a
numeral (`not_addressSpace`).  And the front of a list is told from the comma inside it by
its second character (`Opening`).
-/
import Mathlib.Data.List.Induction
import ShaderReport.Proofs.Types.Descent
import ShaderReport.Proofs.Types.Endings

namespace ShaderReport

open Text

/-- No struct has a name that would have to be quoted. -/
def TypeTable.PlainNames (t : TypeTable) : Prop := ∀ s ∈ t.shapes, s.Plain

instance (t : TypeTable) : Decidable t.PlainNames :=
  inferInstanceAs (Decidable (∀ s ∈ t.shapes, ∀ name ∈ s.structName?, _))

/-! ## Lists -/

/-- What stands in front of the types of a list, read backwards. -/
inductive Opening : List Char → Prop
  | fields (r : List Char) : Opening (' ' :: '\x7b' :: r)
  | parameters (r : List Char) : Opening ('(' :: ' ' :: r)

theorem Opening.before {z : List Char} (h : Opening z) : Before z := by
  cases h with
  | fields r => exact before_blank _
  | parameters r => exact before_bracket _

theorem Opening.not_comma {z : List Char} (h : Opening z) (r : List Char) :
    z ≠ ' ' :: ',' :: r := by
  rintro rfl
  cases h

namespace TypeTable

theorem text_eq {t : TypeTable} (ht : t.Ordered) {id : TypeId} {s : Shape}
    (h : t.shape? id = some s) : t.text id = s.text t.text := by
  refine fold_eq_of_components ht h ?_
  intro below below' agree
  refine Shape.text_congr fun c hc => agree c ?_
  cases s with
  | struct name fields =>
      cases name with
      | some name => cases hc
      | none => exact hc
  | _ => exact hc

/-- The type at a place is found again at the end of a text that it ends, and so is what
stands in front of it, whatever other type of the table is tried. -/
def Unambiguous (t : TypeTable) (i : TypeId) : Prop :=
  ∀ j < t.size, ∀ r r', Before r → Before r' →
    backwards (t.text i) ++ r = backwards (t.text j) ++ r' → i = j ∧ r = r'

/-- What stands in front of the last type of a list. -/
def beforeLast (t : TypeTable) (z : List Char) : List TypeId → List Char
  | [] => z
  | first :: others =>
    ' ' :: ',' :: (backwards (commaSeparated ((first :: others).map t.text)) ++ z)

theorem backwards_list (t : TypeTable) (z : List Char) (others : List TypeId) (last : TypeId) :
    backwards (commaSeparated ((others ++ [last]).map t.text)) ++ z =
      backwards (t.text last) ++ t.beforeLast z others := by
  cases others with
  | nil => simp [commaSeparated, beforeLast]
  | cons first others =>
      rw [List.map_append, List.map_singleton, commaSeparated_concat (by simp), beforeLast]
      simp only [backwards_append, List.append_assoc]
      rfl

theorem before_beforeLast (t : TypeTable) {z : List Char} (hz : Opening z)
    (others : List TypeId) : Before (t.beforeLast z others) := by
  cases others with
  | nil => exact hz.before
  | cons first others => exact before_blank _

section Table

variable {t : TypeTable} (ht : t.Ordered) (plain : t.PlainNames)
include ht plain

theorem not_opening {c : TypeId} (hc : c < t.size) (r : List Char) :
    ¬ Opening (backwards (t.text c) ++ r) := by
  obtain ⟨s, hs⟩ := exists_shape? hc
  obtain ⟨last, rest, e, -, blank, bracket⟩ :=
    Shape.exists_last (plain s (List.mem_of_getElem? hs)) t.text r
  rw [text_eq ht hs, e]
  intro h
  rcases h.before last rfl with rfl | rfl
  · exact blank rfl
  · exact bracket rfl

theorem list_append_inj {l l' : List TypeId} (below : ∀ c ∈ l, c < t.size ∧ t.Unambiguous c)
    (inside : ∀ c ∈ l', c < t.size) {z z' : List Char} (hz : Opening z) (hz' : Opening z')
    (h : backwards (commaSeparated (l.map t.text)) ++ z =
      backwards (commaSeparated (l'.map t.text)) ++ z') : l = l' ∧ z = z' := by
  induction l using List.reverseRecOn generalizing l' with
  | nil =>
      rcases List.eq_nil_or_concat' l' with rfl | ⟨others', last', rfl⟩
      · exact ⟨rfl, h⟩
      · rw [backwards_list] at h
        have opens : Opening (backwards (t.text last') ++ t.beforeLast z' others') := h ▸ hz
        exact absurd opens (not_opening ht plain (inside last' (by simp)) _)
  | append_singleton others last ih =>
      obtain ⟨hl, unambiguous⟩ := below last (by simp)
      rw [backwards_list] at h
      rcases List.eq_nil_or_concat' l' with rfl | ⟨others', last', rfl⟩
      · have opens : Opening (backwards (t.text last) ++ t.beforeLast z others) := h ▸ hz'
        exact absurd opens (not_opening ht plain hl _)
      · rw [backwards_list] at h
        obtain ⟨rfl, front⟩ := unambiguous last' (inside last' (by simp)) _ _
          (t.before_beforeLast hz others) (t.before_beforeLast hz' others') h
        -- the fronts agree, so both lists go on, or neither does
        cases others with
        | nil =>
            cases others' with
            | nil => exact ⟨rfl, front⟩
            | cons first' others' => exact absurd front (hz.not_comma _)
        | cons first others =>
            cases others' with
            | nil => exact absurd front.symm (hz'.not_comma _)
            | cons first' others' =>
                have fronts := List.tail_eq_of_cons_eq (List.tail_eq_of_cons_eq front)
                obtain ⟨same, rest⟩ := ih (fun c hc => below c (List.mem_append_left _ hc))
                  (fun c hc => inside c (List.mem_append_left _ hc)) fronts
                exact ⟨congrArg (· ++ [last]) same, rest⟩

/-! ## One type -/

omit ht plain in
/-- A number of elements, in whatever brackets. -/
theorem elements_append_inj {e e' : TypeId} (he : t.Unambiguous e) (he' : e' < t.size)
    {n n' : Nat} {c : Char} (hc : c.isDigit = false) {r r' : List Char}
    (h : backwards (t.text e) ++ ' ' :: 'x' :: ' ' :: (backwards n.repr ++ c :: r) =
      backwards (t.text e') ++ ' ' :: 'x' :: ' ' :: (backwards n'.repr ++ c :: r')) :
    e = e' ∧ n = n' ∧ r = r' := by
  obtain ⟨same, front⟩ := he e' he' _ _ (before_blank _) (before_blank _) h
  simp only [List.cons.injEq, true_and] at front
  obtain ⟨numbers, rest⟩ := numeral_append_inj hc hc front
  exact ⟨same, numbers, (List.cons.inj rest).2⟩

/-- A function is no numeral in brackets. -/
theorem not_addressSpace {p : TypeId} (hp : p < t.size) (r : List Char) (n : Nat)
    (r' : List Char) : backwards (t.text p) ++ r ≠ ')' :: (backwards n.repr ++ '(' :: r') := by
  obtain ⟨s, hs⟩ := exists_shape? hp
  have older : ∀ c ∈ s.components, c < t.size := fun c hc => Nat.lt_trans (ht p s hs c hc) hp
  intro h
  rw [text_eq ht hs] at h
  have ends : s.ending = .function := by
    obtain ⟨last, rest, e, ending, -⟩ :=
      Shape.exists_last (plain s (List.mem_of_getElem? hs)) t.text r
    rw [e] at h
    obtain ⟨rfl, -⟩ := List.cons.inj h
    exact ending.symm
  obtain ⟨result, parameters, rfl⟩ := Shape.endsAs ends
  rw [Shape.backwards_function] at h
  have inside := List.tail_eq_of_cons_eq h
  rcases List.eq_nil_or_concat' parameters with rfl | ⟨others, last, rfl⟩
  · obtain ⟨digit, digits, numeral, isDigit⟩ := exists_numeral_eq_cons n
    rw [numeral] at inside
    obtain ⟨rfl, -⟩ := List.cons.inj inside
    cases isDigit
  · obtain ⟨s', hs'⟩ := exists_shape? (older last (by simp [Shape.components]))
    rw [backwards_list, text_eq ht hs'] at inside
    exact Shape.not_numeral (plain s' (List.mem_of_getElem? hs')) t.text
      (t.before_beforeLast (.parameters _) others) n r' inside

/-- Pointers are told apart by what they point to and by their address spaces. -/
theorem pointer_append_inj {p p' : TypeId} (hp : p < t.size) (unambiguous : t.Unambiguous p)
    (hp' : p' < t.size) {space space' : UInt32} {r r' : List Char} (hr : Before r)
    (hr' : Before r')
    (h : backwards ((Shape.pointer p space).text t.text) ++ r =
      backwards ((Shape.pointer p' space').text t.text) ++ r') :
    p = p' ∧ space = space' ∧ r = r' := by
  by_cases zero : space = 0
  · rw [zero, Shape.backwards_pointer] at h
    by_cases zero' : space' = 0
    · rw [zero', Shape.backwards_pointer] at h
      obtain ⟨same, rest⟩ := unambiguous p' hp' r r' hr hr' (List.tail_eq_of_cons_eq h)
      exact ⟨same, zero.trans zero'.symm, rest⟩
    · rw [Shape.backwards_pointer_into _ _ _ zero'] at h
      exact absurd (List.tail_eq_of_cons_eq h) (not_addressSpace ht plain hp _ _ _)
  · rw [Shape.backwards_pointer_into _ _ _ zero] at h
    by_cases zero' : space' = 0
    · rw [zero', Shape.backwards_pointer] at h
      exact absurd (List.tail_eq_of_cons_eq h).symm (not_addressSpace ht plain hp' _ _ _)
    · rw [Shape.backwards_pointer_into _ _ _ zero'] at h
      obtain ⟨numbers, front⟩ := numeral_append_inj (by decide) (by decide)
        (List.tail_eq_of_cons_eq (List.tail_eq_of_cons_eq h))
      have pointees := List.append_cancel_left (List.tail_eq_of_cons_eq front)
      obtain ⟨same, rest⟩ := unambiguous p' hp' r r' hr hr' pointees
      exact ⟨same, UInt32.toNat_inj.mp numbers, rest⟩

/-- Shapes that read the same denote one type, if their components are known by their
texts. -/
theorem key_eq_of_text {s s' : Shape} (hs : s.Plain) (hs' : s'.Plain)
    (below : ∀ c ∈ s.components, c < t.size ∧ t.Unambiguous c)
    (inside : ∀ c ∈ s'.components, c < t.size) {r r' : List Char} (hr : Before r)
    (hr' : Before r')
    (h : backwards (s.text t.text) ++ r = backwards (s'.text t.text) ++ r') :
    s.key = s'.key ∧ r = r' := by
  have ends' := (Shape.ending_eq hs hs' h).symm
  cases ends : s.ending with
  | word =>
      rw [ends] at ends'
      exact Shape.key_eq_of_words hs hs' ends ends' hr hr' h
  | vector =>
      rw [ends] at ends'
      obtain ⟨element, length, rfl⟩ := Shape.endsAs ends
      obtain ⟨element', length', rfl⟩ := Shape.endsAs ends'
      rw [Shape.backwards_vector, Shape.backwards_vector] at h
      obtain ⟨rfl, lengths, rest⟩ := elements_append_inj (below element List.mem_cons_self).2
        (inside element' List.mem_cons_self) (by decide) (List.tail_eq_of_cons_eq h)
      rw [UInt32.toNat_inj.mp lengths]
      exact ⟨rfl, rest⟩
  | array =>
      rw [ends] at ends'
      obtain ⟨element, length, rfl⟩ := Shape.endsAs ends
      obtain ⟨element', length', rfl⟩ := Shape.endsAs ends'
      rw [Shape.backwards_array, Shape.backwards_array] at h
      obtain ⟨rfl, lengths, rest⟩ := elements_append_inj (below element List.mem_cons_self).2
        (inside element' List.mem_cons_self) (by decide) (List.tail_eq_of_cons_eq h)
      rw [UInt64.toNat_inj.mp lengths]
      exact ⟨rfl, rest⟩
  | literal =>
      rw [ends] at ends'
      obtain ⟨fields, rfl⟩ := Shape.endsAs ends
      obtain ⟨fields', rfl⟩ := Shape.endsAs ends'
      rw [Shape.backwards_literal, Shape.backwards_literal] at h
      obtain ⟨rfl, front⟩ := list_append_inj ht plain below inside (.fields r) (.fields r')
        (List.tail_eq_of_cons_eq (List.tail_eq_of_cons_eq h))
      exact ⟨rfl, List.tail_eq_of_cons_eq (List.tail_eq_of_cons_eq front)⟩
  | pointer =>
      rw [ends] at ends'
      obtain ⟨pointee, space, rfl⟩ := Shape.endsAs ends
      obtain ⟨pointee', space', rfl⟩ := Shape.endsAs ends'
      obtain ⟨inTable, unambiguous⟩ := below pointee List.mem_cons_self
      obtain ⟨rfl, rfl, rest⟩ := pointer_append_inj ht plain inTable unambiguous
        (inside pointee' List.mem_cons_self) hr hr' h
      exact ⟨rfl, rest⟩
  | function =>
      rw [ends] at ends'
      obtain ⟨result, parameters, rfl⟩ := Shape.endsAs ends
      obtain ⟨result', parameters', rfl⟩ := Shape.endsAs ends'
      rw [Shape.backwards_function, Shape.backwards_function] at h
      obtain ⟨first, others⟩ := List.forall_mem_cons.mp below
      obtain ⟨first', others'⟩ := List.forall_mem_cons.mp inside
      obtain ⟨rfl, front⟩ := list_append_inj ht plain others others' (.parameters _)
        (.parameters _) (List.tail_eq_of_cons_eq h)
      obtain ⟨rfl, rest⟩ := first.2 result' first' r r' hr hr'
        (List.tail_eq_of_cons_eq (List.tail_eq_of_cons_eq front))
      exact ⟨rfl, rest⟩

/-! ## Whole tables -/

/-- A type is known by its text if its components are. -/
theorem unambiguous_of_components (distinct : t.Distinct) {i : TypeId} {s : Shape}
    (hs : t.shape? i = some s) (below : ∀ c ∈ s.components, t.Unambiguous c) :
    t.Unambiguous i := by
  intro j hj r r' hr hr' h
  obtain ⟨s', hs'⟩ := exists_shape? hj
  have inside : ∀ c ∈ s.components, c < t.size := fun c hc =>
    Nat.lt_trans (ht i s hs c hc) (lt_size_of_shape? hs)
  have inside' : ∀ c ∈ s'.components, c < t.size := fun c hc =>
    Nat.lt_trans (ht j s' hs' c hc) hj
  rw [text_eq ht hs, text_eq ht hs'] at h
  obtain ⟨keys, rest⟩ := key_eq_of_text ht plain (plain s (List.mem_of_getElem? hs))
    (plain s' (List.mem_of_getElem? hs')) (fun c hc => ⟨inside c hc, below c hc⟩) inside' hr hr' h
  exact ⟨distinct i j s s' hs hs' keys, rest⟩

theorem unambiguous (distinct : t.Distinct) {i : TypeId} (hi : i < t.size) : t.Unambiguous i := by
  induction i using Nat.strongRecOn with
  | ind i ih =>
    obtain ⟨s, hs⟩ := exists_shape? hi
    refine unambiguous_of_components ht plain distinct hs ?_
    intro c hc
    have older : c < i := ht i s hs c hc
    exact ih c older (Nat.lt_trans older hi)

end Table

end TypeTable

/-- In a table whose structs have plain names, places are equal if the texts of the types at
them are. -/
theorem text_eq_iff {t : TypeTable} (ht : t.Built) (plain : t.PlainNames) {i j : TypeId}
    (hi : i < t.size) (hj : j < t.size) : t.text i = t.text j ↔ i = j := by
  constructor
  · intro same
    have nothing : Before [] := fun c hc => by cases hc
    have unambiguous := TypeTable.unambiguous ht.ordered plain ht.distinct hi
    exact (unambiguous j hj [] [] nothing nothing (by rw [same])).1
  · rintro rfl
    rfl

/-- Pointers that end alike, literal structs with and without a field, and a struct whose
name is a numeral. -/
def lookalikes : List Request :=
  [.shape .void, .shape (.struct (some "5") []), .shape (.pointer 0 5),
   .shape (.function 0 [1]), .shape (.pointer 3 0), .shape (.struct none []),
   .shape (.struct none [5]), .shape (.function 3 []), .shape (.pointer 1 0)]

theorem text_eq_iff_lookalikes :
    TypeTable.text (TypeTable.run {} lookalikes) 2 = "void addrspace(5)*" ∧
    TypeTable.text (TypeTable.run {} lookalikes) 4 = "void (%5)*" ∧
    ∀ i < 9, ∀ j < 9, TypeTable.text (TypeTable.run {} lookalikes) i =
      TypeTable.text (TypeTable.run {} lookalikes) j ↔ i = j := by
  have built : (TypeTable.run {} lookalikes).Built := ⟨lookalikes, by decide +kernel, rfl⟩
  have plain : (TypeTable.run {} lookalikes).PlainNames := by decide +kernel
  refine ⟨by decide +kernel, by decide +kernel, ?_⟩
  intro i hi j hj
  exact text_eq_iff built plain hi hj

/-- A name that is not plain can read as another type. -/
example : TypeTable.text (TypeTable.run {} [.shape (.struct (some "A") []),
      .shape (.pointer 0 0), .shape (.struct (some "A*") [])]) 1 = "%A*" ∧
    TypeTable.text (TypeTable.run {} [.shape (.struct (some "A") []),
      .shape (.pointer 0 0), .shape (.struct (some "A*") [])]) 2 = "%A*" := by
  decide +kernel

end ShaderReport
