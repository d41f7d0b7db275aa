/-
# Texts read from their end

Some texts are put together so that their last character says what they are, and what
stands before it is told apart in the same way.  Such texts are read backwards here.

Two steps are all that is needed for the pieces that have no end of their own, names and
numerals: a run of characters of one kind reaches as far as the next character of
another kind (`run_append_inj`), and a numeral is such a run (`numeral_append_inj`).
-/
import ShaderReport.Text.Column

namespace ShaderReport.Text

/-- The characters of a text, last one first. -/
def backwards (s : String) : List Char := s.toList.reverse

@[simp] theorem backwards_append (s t : String) :
    backwards (s ++ t) = backwards t ++ backwards s := by
  rw [backwards, String.toList_append, List.reverse_append]
  rfl

theorem backwards_inj {s t : String} : backwards s = backwards t ↔ s = t := by
  constructor
  · intro h
    exact String.toList_injective (List.reverse_inj.mp h)
  · rintro rfl
    rfl

/-- Two runs of characters of one kind, with something else behind each. -/
theorem run_append_inj {kind : Char → Bool} {a b r r' : List Char} (ha : ∀ c ∈ a, kind c = true)
    (hb : ∀ c ∈ b, kind c = true) (hr : ∀ c ∈ r.head?, kind c = false)
    (hr' : ∀ c ∈ r'.head?, kind c = false) (h : a ++ r = b ++ r') : a = b ∧ r = r' := by
  induction a generalizing b with
  | nil =>
      cases b with
      | nil => exact ⟨rfl, h⟩
      | cons c b =>
          have inside := hb c List.mem_cons_self
          rw [List.nil_append] at h
          rw [hr c (h ▸ rfl)] at inside
          cases inside
  | cons c a ih =>
      obtain ⟨hc, ha⟩ := List.forall_mem_cons.mp ha
      cases b with
      | nil =>
          rw [List.nil_append] at h
          rw [hr' c (h ▸ rfl)] at hc
          cases hc
      | cons d b =>
          obtain ⟨rfl, tails⟩ := List.cons.inj h
          obtain ⟨rfl, rest⟩ := ih ha (List.forall_mem_cons.mp hb).2 tails
          exact ⟨rfl, rest⟩

/-! ## Numerals -/

theorem isDigit_of_mem_repr {n : Nat} {c : Char} (h : c ∈ n.repr.toList) : c.isDigit = true := by
  rw [Nat.toList_repr] at h
  exact Nat.isDigit_of_mem_toDigits (by decide) (by decide) h

theorem isDigit_of_mem_numeral {n : Nat} {c : Char} (h : c ∈ backwards n.repr) :
    c.isDigit = true :=
  isDigit_of_mem_repr (List.mem_reverse.mp h)

theorem toList_repr_inj {m n : Nat} : m.repr.toList = n.repr.toList ↔ m = n := by
  rw [Nat.toList_repr, Nat.toList_repr]
  refine ⟨?_, congrArg (Nat.toDigits 10)⟩
  intro digits
  rw [← Nat.ofDigitChars_ten_toDigits (n := m), digits, Nat.ofDigitChars_ten_toDigits]

theorem exists_numeral_eq_cons (n : Nat) :
    ∃ c rest, backwards n.repr = c :: rest ∧ c.isDigit = true := by
  have some : backwards n.repr ≠ [] := by
    rw [backwards, List.reverse_ne_nil_iff, Nat.toList_repr]
    exact Nat.toDigits_ne_nil
  obtain ⟨c, rest, e⟩ := List.exists_cons_of_ne_nil some
  exact ⟨c, rest, e, isDigit_of_mem_numeral (e ▸ List.mem_cons_self)⟩

theorem numeral_append_inj {m n : Nat} {c c' : Char} {r r' : List Char} (hc : c.isDigit = false)
    (hc' : c'.isDigit = false)
    (h : backwards m.repr ++ c :: r = backwards n.repr ++ c' :: r') :
    m = n ∧ c :: r = c' :: r' := by
  have front : ∀ x ∈ (c :: r).head?, x.isDigit = false := fun x hx => Option.some.inj hx ▸ hc
  have front' : ∀ x ∈ (c' :: r').head?, x.isDigit = false := fun x hx => Option.some.inj hx ▸ hc'
  obtain ⟨same, rest⟩ := run_append_inj (fun _ => isDigit_of_mem_numeral)
    (fun _ => isDigit_of_mem_numeral) front front' h
  exact ⟨toList_repr_inj.mp (List.reverse_inj.mp same), rest⟩

/-- A negative number is told from the others by its sign. -/
theorem int_repr_inj {a b : Int} : a.repr = b.repr ↔ a = b := by
  have sign : ∀ m n : Nat, m.repr ≠ "-" ++ n.repr := by
    intro m n same
    have digit : '-'.isDigit = true := by
      refine isDigit_of_mem_repr (n := m) ?_
      rw [same, String.toList_append]
      exact List.mem_append_left _ List.mem_cons_self
    exact absurd digit (by decide)
  constructor
  · intro same
    cases a with
    | ofNat m =>
        cases b with
        | ofNat n => exact congrArg Int.ofNat (toList_repr_inj.mp (congrArg String.toList same))
        | negSucc n => exact absurd same (sign m (n + 1))
    | negSucc m =>
        cases b with
        | ofNat n => exact absurd same.symm (sign n (m + 1))
        | negSucc n =>
            have numerals := (String.append_right_inj "-").mp same
            have next := toList_repr_inj.mp (congrArg String.toList numerals)
            rw [Nat.succ.inj next]
  · rintro rfl
    rfl

theorem backwards_blanks (n : Nat) : backwards (blanks n) = List.replicate n ' ' := by
  rw [backwards, blanks, String.toList_ofList, List.reverse_replicate]

/-- Numerals at the right of a column are as different as their numbers. -/
theorem padLeft_repr_inj {width m n : Nat} :
    padLeft width m.repr = padLeft width n.repr ↔ m = n := by
  constructor
  · intro h
    have blank : ∀ k, ∀ c ∈ (List.replicate k ' ').head?, c.isDigit = false := by
      intro k c hc
      rw [List.eq_of_mem_replicate (List.mem_of_mem_head? hc)]
      decide
    have chars := congrArg backwards h
    rw [padLeft, padLeft, backwards_append, backwards_append, backwards_blanks,
      backwards_blanks] at chars
    obtain ⟨digits, -⟩ := run_append_inj (fun _ => isDigit_of_mem_numeral)
      (fun _ => isDigit_of_mem_numeral) (blank _) (blank _) chars
    exact toList_repr_inj.mp (List.reverse_inj.mp digits)
  · rintro rfl
    rfl

/-! ## Lists -/

/-- The last of several texts stands at the end, behind a comma. -/
theorem commaSeparated_concat {ss : List String} (some : ss ≠ []) (s : String) :
    commaSeparated (ss ++ [s]) = commaSeparated ss ++ ", " ++ s := by
  induction ss with
  | nil => exact absurd rfl some
  | cons a rest ih =>
      cases rest with
      | nil => simp [commaSeparated, String.join_cons, String.append_assoc]
      | cons b rest =>
          rw [List.cons_append, List.cons_append, commaSeparated_cons_cons,
            ← List.cons_append, ih (List.cons_ne_nil b rest), commaSeparated_cons_cons]
          simp only [String.append_assoc]

end ShaderReport.Text
