/-
# The lines of a text

`linesOf` cuts a text at its line breaks; a break at the very end opens no
further line.  On texts made of lines without breaks it is the inverse of joining
them (`linesOf_flatMap`).

What matters for reports is the other case: text in which a piece that was meant
as one line holds a break.  `BreaksMarked` says that each break of a piece is
followed, inside the piece, by the marker, and `marked_iff` says that this is what
decides whether every line of marked text begins with the marker.
-/
import ShaderReport.Report.Basic
import ShaderReport.Text.Column

namespace ShaderReport.Text

/-! ## Text on one line -/

/-- There is no line break in the text. -/
def OneLine (s : String) : Prop := '\n' ∉ s.toList

instance (s : String) : Decidable (OneLine s) := inferInstanceAs (Decidable ('\n' ∉ s.toList))

@[simp] theorem oneLine_append (s t : String) : OneLine (s ++ t) ↔ OneLine s ∧ OneLine t := by
  simp [OneLine, not_or]

theorem oneLine_blanks (n : Nat) : OneLine (blanks n) := by
  simp [OneLine, blanks]

@[simp] theorem oneLine_padLeft (width : Nat) (s : String) :
    OneLine (padLeft width s) ↔ OneLine s := by
  simp [padLeft, oneLine_blanks]

theorem oneLine_repr (n : Nat) : OneLine n.repr := by
  intro h
  rw [Nat.toList_repr] at h
  have digit := Nat.isDigit_of_mem_toDigits (by decide) (by decide) h
  exact absurd digit (by decide)

theorem oneLine_ofList {s : List Char} : OneLine (String.ofList s) ↔ '\n' ∉ s := by
  rw [OneLine, String.toList_ofList]

theorem oneLine_ite {p : Prop} [Decidable p] {s t : String} (hs : OneLine s) (ht : OneLine t) :
    OneLine (if p then s else t) := by
  split
  · exact hs
  · exact ht

theorem oneLine_getD {table : List String} (h : ∀ s ∈ table, OneLine s) (n : Nat)
    {other : String} (ho : OneLine other) : OneLine (table.getD n other) := by
  rw [List.getD_eq_getElem?_getD]
  cases found : table[n]? with
  | none => exact ho
  | some s => exact h s (List.mem_of_getElem? found)

theorem beginsWith_append (s rest : String) : beginsWith s (s ++ rest) = true := by
  rw [beginsWith, List.isPrefixOf_iff_prefix, String.toList_append]
  exact List.prefix_append _ _

/-! ## Splitting -/

/-- The lines of a text, without the breaks that end them. -/
def linesOf : List Char → List (List Char)
  | [] => []
  | x :: rest =>
    if x = '\n' then [] :: linesOf rest
    else
      match linesOf rest with
      | [] => [[x]]
      | l :: ls => (x :: l) :: ls

theorem linesOf_break (rest : List Char) : linesOf ('\n' :: rest) = [] :: linesOf rest :=
  if_pos rfl

theorem linesOf_cons {x : Char} {rest l : List Char} {ls : List (List Char)} (hx : x ≠ '\n')
    (h : linesOf rest = l :: ls) : linesOf (x :: rest) = (x :: l) :: ls := by
  rw [linesOf, if_neg hx, h]

/-- The lines that were joined are found again. -/
theorem linesOf_flatMap {ls : List (List Char)} (h : ∀ l ∈ ls, '\n' ∉ l) :
    linesOf (ls.flatMap (· ++ ['\n'])) = ls := by
  -- the first line alone, whatever stands behind its break
  have first : ∀ (l rest : List Char), '\n' ∉ l →
      linesOf (l ++ '\n' :: rest) = l :: linesOf rest := by
    intro l rest hl
    induction l with
    | nil => exact linesOf_break rest
    | cons x l ih =>
        obtain ⟨hx, hl'⟩ := List.ne_and_not_mem_of_not_mem_cons hl
        exact linesOf_cons (Ne.symm hx) (ih hl')
  induction ls with
  | nil => rfl
  | cons l ls ih =>
      obtain ⟨hl, hls⟩ := List.forall_mem_cons.mp h
      rw [List.flatMap_cons, List.append_assoc, List.singleton_append, first l _ hl, ih hls]

/-! ## Breaks inside a piece -/

section Marked

variable (marker : Char)

/-- Every line break of the piece is followed, inside the piece, by the marker. -/
def BreaksMarked : List Char → Prop
  | [] => True
  | x :: rest => (x = '\n' → rest.head? = some marker) ∧ BreaksMarked rest

instance decidableBreaksMarked : (s : List Char) → Decidable (BreaksMarked marker s)
  | [] => isTrue trivial
  | x :: rest =>
    have := decidableBreaksMarked rest
    inferInstanceAs (Decidable ((x = '\n' → rest.head? = some marker) ∧ BreaksMarked marker rest))

variable {marker}

theorem breaksMarked_of_not_mem {s : List Char} (h : '\n' ∉ s) : BreaksMarked marker s := by
  induction s with
  | nil => trivial
  | cons x s ih =>
      obtain ⟨hx, hs⟩ := List.ne_and_not_mem_of_not_mem_cons h
      exact ⟨fun e => absurd e.symm hx, ih hs⟩

theorem OneLine.breaksMarked {s : String} (h : OneLine s) : BreaksMarked marker s.toList :=
  breaksMarked_of_not_mem h

theorem breaksMarked_cons {x : Char} (hx : x ≠ '\n') (s : List Char) :
    BreaksMarked marker (x :: s) ↔ BreaksMarked marker s := by
  constructor
  · intro h
    exact h.2
  · intro h
    exact ⟨fun e => absurd e hx, h⟩

/-- Text without breaks in front of a piece changes nothing. -/
theorem breaksMarked_append_left {front : List Char} (h : '\n' ∉ front) (s : List Char) :
    BreaksMarked marker (front ++ s) ↔ BreaksMarked marker s := by
  induction front with
  | nil => exact Iff.rfl
  | cons x front ih =>
      obtain ⟨hx, hfront⟩ := List.ne_and_not_mem_of_not_mem_cons h
      rw [List.cons_append, breaksMarked_cons (Ne.symm hx), ih hfront]

/-- Neither does text without breaks behind it, once a character stands between. -/
theorem breaksMarked_append_right (s : List Char) {middle rest : List Char}
    (nonempty : middle ≠ []) (hmiddle : '\n' ∉ middle) (hrest : '\n' ∉ rest) :
    BreaksMarked marker (s ++ middle ++ rest) ↔ BreaksMarked marker (s ++ middle) := by
  induction s with
  | nil =>
      have whole : '\n' ∉ middle ++ rest := by
        rw [List.mem_append, not_or]
        exact ⟨hmiddle, hrest⟩
      exact iff_of_true (breaksMarked_of_not_mem whole) (breaksMarked_of_not_mem hmiddle)
  | cons x s ih =>
      have same : (s ++ middle ++ rest).head? = (s ++ middle).head? := by
        obtain ⟨y, others, hy⟩ := List.exists_cons_of_ne_nil
          (show s ++ middle ≠ [] by simp [nonempty])
        rw [hy]
        rfl
      simp only [List.cons_append, BreaksMarked, same, ih]

/-- Text without breaks that does not begin with the marker marks no break. -/
theorem breaksMarked_append_other (s : List Char) {rest : List Char} (hrest : '\n' ∉ rest)
    (other : rest.head? ≠ some marker) :
    BreaksMarked marker (s ++ rest) ↔ BreaksMarked marker s := by
  induction s with
  | nil => exact iff_of_true (breaksMarked_of_not_mem hrest) trivial
  | cons x s ih =>
      have same : (s ++ rest).head? = some marker ↔ s.head? = some marker := by
        cases s with
        | nil => simp [other]
        | cons y s => exact Iff.rfl
      simp only [List.cons_append, BreaksMarked, same, ih]

/-- A piece and the break behind it: its first line begins as the piece does, and the
others begin with the marker exactly if the breaks of the piece are marked. -/
theorem linesOf_piece (hm : marker ≠ '\n') (s : List Char) :
    ∃ first others, (∀ rest, linesOf (s ++ '\n' :: rest) = first :: others ++ linesOf rest) ∧
      (first.head? = some marker ↔ s.head? = some marker) ∧
      ((∀ l ∈ others, l.head? = some marker) ↔ BreaksMarked marker s) := by
  induction s with
  | nil =>
      refine ⟨[], [], linesOf_break, Iff.rfl, ?_⟩
      exact iff_of_true (List.forall_mem_nil _) trivial
  | cons x s ih =>
      obtain ⟨first, others, split, begins, marks⟩ := ih
      by_cases hx : x = '\n'
      · subst hx
        refine ⟨[], first :: others, ?_, ?_, ?_⟩
        · intro rest
          rw [List.cons_append, linesOf_break, split rest]
          rfl
        · simp [Ne.symm hm]
        · rw [List.forall_mem_cons, begins, marks]
          simp [BreaksMarked]
      · refine ⟨x :: first, others, ?_, Iff.rfl, ?_⟩
        · intro rest
          exact linesOf_cons hx (split rest)
        · rw [breaksMarked_cons hx, marks]

/-- Every line of marked text begins with the marker exactly if the breaks inside the
pieces are marked. -/
theorem marked_iff (hm : marker ≠ '\n') (ls : List String) :
    (∀ l ∈ linesOf (Report.marked marker ls).toList, l.head? = some marker) ↔
      ∀ l ∈ ls, BreaksMarked marker l.toList := by
  induction ls with
  | nil => simp [Report.marked, linesOf]
  | cons s ls ih =>
      have text : (Report.marked marker (s :: ls)).toList =
          (marker :: s.toList) ++ '\n' :: (Report.marked marker ls).toList := by
        simp [Report.marked, String.join_cons]
      obtain ⟨first, others, split, begins, marks⟩ := linesOf_piece hm (marker :: s.toList)
      rw [text, split, List.cons_append, List.forall_mem_cons, List.forall_mem_append, ih,
        begins, marks, breaksMarked_cons hm, List.forall_mem_cons]
      simp

end Marked

end ShaderReport.Text
