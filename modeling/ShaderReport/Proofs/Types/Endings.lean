/-
# How the text of a type ends

Read from its end, the text of a type says at once what the type is:

    <n x T>   >      [n x T]   ]      { T, T }   }      T*   *      T (T, T)   )

All other texts end in a letter, a digit or `%`: those of types that are words, and those
of named structs, as long as the names are plain: letters, digits and a few other
characters, and no blanks or brackets.

Whatever stands in front of a type inside a longer text ends in a blank or in an opening
bracket (`Before`), so words and names have an end there too (`key_eq_of_words`).  And
none of them reads as a numeral behind a bracket (`not_numeral`), which is how an address
space would end.
-/
import ShaderReport.Proofs.Text.Backwards
import ShaderReport.Proofs.Types.Interning

namespace ShaderReport

open Text

/-! ## Plain names -/

/-- A character that a name can hold without being quoted. -/
def Text.isPlain (c : Char) : Bool :=
  c.isAlphanum || c = '.' || c = '_' || c = '$' || c = '-'

theorem isPlain_of_isDigit {c : Char} (h : c.isDigit = true) : isPlain c = true := by
  simp [isPlain, Char.isAlphanum, h]

theorem isPlain_of_mem_numeral {n : Nat} {c : Char} (h : c ∈ backwards n.repr) :
    isPlain c = true :=
  isPlain_of_isDigit (isDigit_of_mem_numeral h)

/-- What can stand in front of a type, read backwards. -/
def Before (r : List Char) : Prop := ∀ c ∈ r.head?, c = ' ' ∨ c = '('

theorem before_blank (r : List Char) : Before (' ' :: r) := by
  rintro c ⟨rfl⟩
  exact Or.inl rfl

theorem before_bracket (r : List Char) : Before ('(' :: r) := by
  rintro c ⟨rfl⟩
  exact Or.inr rfl

theorem Before.not_plain {r : List Char} (h : Before r) : ∀ c ∈ r.head?, isPlain c = false := by
  intro c hc
  rcases h c hc with rfl | rfl
  · decide
  · decide

/-! ## The text of one shape, read backwards -/

namespace Shape

section Backwards

variable (below : TypeId → String) (r : List Char)

theorem backwards_vector (element : TypeId) (length : UInt32) :
    backwards ((vector element length).text below) ++ r =
      '>' :: (backwards (below element) ++
        ' ' :: 'x' :: ' ' :: (backwards length.toNat.repr ++ '<' :: r)) := by
  simp only [text, backwards_append, List.append_assoc]
  rfl

theorem backwards_array (element : TypeId) (length : UInt64) :
    backwards ((array element length).text below) ++ r =
      ']' :: (backwards (below element) ++
        ' ' :: 'x' :: ' ' :: (backwards length.toNat.repr ++ '[' :: r)) := by
  simp only [text, backwards_append, List.append_assoc]
  rfl

theorem backwards_literal (fields : List TypeId) :
    backwards ((struct none fields).text below) ++ r =
      '\x7d' :: ' ' :: (backwards (commaSeparated (fields.map below)) ++ ' ' :: '\x7b' :: r) := by
  simp only [text, backwards_append, List.append_assoc]
  rfl

theorem backwards_named (name : String) (fields : List TypeId) :
    backwards ((struct (some name) fields).text below) ++ r = backwards name ++ '%' :: r := by
  simp only [text, backwards_append, List.append_assoc]
  rfl

theorem backwards_pointer (pointee : TypeId) :
    backwards ((pointer pointee 0).text below) ++ r = '*' :: (backwards (below pointee) ++ r) := by
  simp only [text, if_true, backwards_append, List.append_assoc]
  rfl

theorem backwards_pointer_into (pointee : TypeId) {space : UInt32} (h : space ≠ 0) :
    backwards ((pointer pointee space).text below) ++ r =
      '*' :: ')' :: (backwards space.toNat.repr ++
        '(' :: (backwards " addrspace" ++ (backwards (below pointee) ++ r))) := by
  simp only [text, if_neg h, backwards_append, List.append_assoc]
  rfl

theorem backwards_function (result : TypeId) (parameters : List TypeId) :
    backwards ((function result parameters).text below) ++ r =
      ')' :: (backwards (commaSeparated (parameters.map below)) ++
        '(' :: ' ' :: (backwards (below result) ++ r)) := by
  simp only [text, backwards_append, List.append_assoc]
  rfl

end Backwards

/-! ## Words -/

/-- A type whose text is one word. -/
def isWord : Shape → Bool
  | .void | .label | .metadata | .half | .float | .double | .integer _ => true
  | _ => false

/-- The type that a word is the text of: the first letters differ. -/
def ofWord : List Char → Shape
  | 'v' :: _ => .void
  | 'l' :: _ => .label
  | 'm' :: _ => .metadata
  | 'h' :: _ => .half
  | 'f' :: _ => .float
  | 'd' :: _ => .double
  | digits => .integer (.ofNat (Nat.ofDigitChars 10 digits.tail 0))

section Word

variable {s : Shape} (word : s.isWord = true) (below : TypeId → String)
include word

theorem ofWord_text : ofWord (s.text below).toList = s := by
  cases s with
  | integer bits =>
      have chars : ((integer bits).text below).toList = 'i' :: Nat.toDigits 10 bits.toNat := by
        rw [text, String.toList_append, Nat.toList_repr]
        rfl
      rw [chars]
      show integer (.ofNat (Nat.ofDigitChars 10 (Nat.toDigits 10 bits.toNat) 0)) = integer bits
      rw [Nat.ofDigitChars_ten_toDigits, UInt32.ofNat_toNat]
  | void | label | metadata | half | float | double =>
      simp only [text]
      decide
  | _ => cases word

theorem isPlain_of_mem_word {c : Char} (h : c ∈ backwards (s.text below)) : isPlain c = true := by
  cases s with
  | integer bits =>
      rw [text, backwards_append, List.mem_append] at h
      rcases h with digit | letter
      · exact isPlain_of_mem_numeral digit
      · rw [List.mem_singleton.mp letter]
        decide
  | void | label | metadata | half | float | double =>
      refine List.all_eq_true.mp ?_ c h
      simp only [text]
      decide
  | _ => cases word

theorem exists_letter : ∃ c ∈ (s.text below).toList, (!c.isDigit) = true := by
  refine List.any_eq_true.mp ?_
  cases s with
  | integer bits =>
      rw [text, String.toList_append, List.any_append]
      rfl
  | void | label | metadata | half | float | double =>
      simp only [text]
      decide
  | _ => cases word

theorem exists_last_of_word :
    ∃ c rest, backwards (s.text below) = c :: rest ∧ isPlain c = true := by
  obtain ⟨letter, member, -⟩ := exists_letter word below
  obtain ⟨c, rest, last⟩ := List.exists_cons_of_ne_nil
    (List.ne_nil_of_mem (List.mem_reverse.mpr member))
  have member : c ∈ backwards (s.text below) := by
    rw [backwards, last]
    exact List.mem_cons_self
  exact ⟨c, rest, last, isPlain_of_mem_word word below member⟩

theorem text_ne_repr (n : Nat) : s.text below ≠ n.repr := by
  intro same
  obtain ⟨c, member, letter⟩ := exists_letter word below
  rw [same] at member
  rw [isDigit_of_mem_repr member] at letter
  cases letter

end Word

end Shape

/-! ## Endings -/

/-- What the last character of a type says of it. -/
inductive Ending where
  | vector
  | array
  | literal
  | pointer
  | function
  /-- A word, or a named struct. -/
  | word

def Ending.ofChar (c : Char) : Ending :=
  if c = '>' then .vector
  else if c = ']' then .array
  else if c = '\x7d' then .literal
  else if c = '*' then .pointer
  else if c = ')' then .function
  else .word

theorem ofChar_of_isPlain {c : Char} (h : isPlain c = true) :
    Ending.ofChar c = .word ∧ c ≠ ' ' ∧ c ≠ '(' := by
  have other : ∀ d ∈ ['>', ']', '\x7d', '*', ')', ' ', '('], c ≠ d := by
    have special : ∀ d ∈ ['>', ']', '\x7d', '*', ')', ' ', '('], (!isPlain d) = true :=
      List.all_eq_true.mp (by decide)
    rintro d member rfl
    have other := special c member
    rw [h] at other
    cases other
  simp only [List.forall_mem_cons] at other
  obtain ⟨h1, h2, h3, h4, h5, blank, bracket, -⟩ := other
  refine ⟨?_, blank, bracket⟩
  rw [Ending.ofChar, if_neg h1, if_neg h2, if_neg h3, if_neg h4, if_neg h5]

namespace Shape

def ending : Shape → Ending
  | .vector .. => .vector
  | .array .. => .array
  | .struct none _ => .literal
  | .pointer .. => .pointer
  | .function .. => .function
  | _ => .word

/-- The type is of the kind that its ending says. -/
def EndsAs (s : Shape) : Ending → Prop
  | .vector => ∃ element length, s = .vector element length
  | .array => ∃ element length, s = .array element length
  | .literal => ∃ fields, s = .struct none fields
  | .pointer => ∃ pointee space, s = .pointer pointee space
  | .function => ∃ result parameters, s = .function result parameters
  | .word => s.isWord = true ∨ ∃ name fields, s = .struct (some name) fields

theorem endsAs {s : Shape} {kind : Ending} (h : s.ending = kind) : s.EndsAs kind := by
  subst h
  cases s with
  | vector element length => exact ⟨element, length, rfl⟩
  | array element length => exact ⟨element, length, rfl⟩
  | pointer pointee space => exact ⟨pointee, space, rfl⟩
  | function result parameters => exact ⟨result, parameters, rfl⟩
  | struct name fields =>
      cases name with
      | none => exact ⟨fields, rfl⟩
      | some name => exact Or.inr ⟨name, fields, rfl⟩
  | void | label | metadata | half | float | double | integer _ => exact Or.inl rfl

theorem ending_of_isWord {s : Shape} (h : s.isWord = true) : s.ending = .word := by
  cases s with
  | void | label | metadata | half | float | double | integer _ => rfl
  | _ => cases h

/-- A shape whose name, if it has one, is plain. -/
def Plain (s : Shape) : Prop := ∀ name ∈ s.structName?, name.toList.all isPlain = true

theorem isPlain_of_mem_name {name : String} {fields : List TypeId}
    (h : (struct (some name) fields).Plain) {c : Char} (member : c ∈ backwards name) :
    isPlain c = true :=
  List.all_eq_true.mp (h name rfl) c (List.mem_reverse.mp member)

/-- The last character of a type is there, says what the type is, and cannot be taken for
what stands in front of one. -/
theorem exists_last {s : Shape} (plain : s.Plain) (below : TypeId → String) (r : List Char) :
    ∃ c rest, backwards (s.text below) ++ r = c :: rest ∧
      Ending.ofChar c = s.ending ∧ c ≠ ' ' ∧ c ≠ '(' := by
  by_cases word : s.isWord = true
  · obtain ⟨c, rest, last, plain⟩ := exists_last_of_word word below
    rw [last, ending_of_isWord word]
    exact ⟨c, rest ++ r, rfl, ofChar_of_isPlain plain⟩
  cases s with
  | vector element length => exact ⟨_, _, backwards_vector .., rfl, by decide, by decide⟩
  | array element length => exact ⟨_, _, backwards_array .., rfl, by decide, by decide⟩
  | function result parameters => exact ⟨_, _, backwards_function .., rfl, by decide, by decide⟩
  | pointer pointee space =>
      by_cases zero : space = 0
      · rw [zero]
        exact ⟨_, _, backwards_pointer .., rfl, by decide, by decide⟩
      · exact ⟨_, _, backwards_pointer_into below r pointee zero, rfl, by decide, by decide⟩
  | struct name fields =>
      cases name with
      | none => exact ⟨_, _, backwards_literal .., rfl, by decide, by decide⟩
      | some name =>
          rw [backwards_named]
          cases last : backwards name with
          | nil => exact ⟨_, _, rfl, rfl, by decide, by decide⟩
          | cons c rest =>
              have member : c ∈ backwards name := last ▸ List.mem_cons_self
              exact ⟨c, _, rfl, ofChar_of_isPlain (isPlain_of_mem_name plain member)⟩
  | void | label | metadata | half | float | double | integer _ => exact absurd rfl word

theorem ending_eq {s s' : Shape} (plain : s.Plain) (plain' : s'.Plain) {below : TypeId → String}
    {r r' : List Char} (h : backwards (s.text below) ++ r = backwards (s'.text below) ++ r') :
    s.ending = s'.ending := by
  obtain ⟨c, rest, first, ending, -⟩ := exists_last plain below r
  obtain ⟨c', rest', first', ending', -⟩ := exists_last plain' below r'
  rw [first, first'] at h
  obtain ⟨rfl, -⟩ := List.cons.inj h
  exact ending.symm.trans ending'

/-- Words and names reach as far as their characters are plain. -/
theorem key_eq_of_words {s s' : Shape} (plain : s.Plain) (plain' : s'.Plain)
    (hs : s.ending = .word) (hs' : s'.ending = .word) {below : TypeId → String} {r r' : List Char}
    (hr : Before r) (hr' : Before r')
    (h : backwards (s.text below) ++ r = backwards (s'.text below) ++ r') :
    s.key = s'.key ∧ r = r' := by
  have percent : ∀ (r : List Char), ∀ c ∈ ('%' :: r).head?, isPlain c = false := by
    rintro r c ⟨rfl⟩
    decide
  have other : ∀ {r r' : List Char}, Before r → r ≠ '%' :: r' := by
    rintro r r' hr rfl
    exact absurd (hr '%' rfl) (by decide)
  rcases endsAs hs with word | ⟨name, fields, rfl⟩
  · rcases endsAs hs' with word' | ⟨name', fields', rfl⟩
    · obtain ⟨same, rest⟩ := run_append_inj (fun _ => isPlain_of_mem_word word below)
        (fun _ => isPlain_of_mem_word word' below) hr.not_plain hr'.not_plain h
      have shapes : s = s' := by
        rw [← ofWord_text word below, backwards_inj.mp same, ofWord_text word' below]
      exact ⟨congrArg key shapes, rest⟩
    · rw [backwards_named] at h
      obtain ⟨-, rest⟩ := run_append_inj (fun _ => isPlain_of_mem_word word below)
        (fun _ => isPlain_of_mem_name plain') hr.not_plain (percent r') h
      exact absurd rest (other hr)
  · rw [backwards_named] at h
    rcases endsAs hs' with word' | ⟨name', fields', rfl⟩
    · obtain ⟨-, rest⟩ := run_append_inj (fun _ => isPlain_of_mem_name plain)
        (fun _ => isPlain_of_mem_word word' below) (percent r) hr'.not_plain h
      exact absurd rest.symm (other hr')
    · rw [backwards_named] at h
      obtain ⟨same, rest⟩ := run_append_inj (fun _ => isPlain_of_mem_name plain)
        (fun _ => isPlain_of_mem_name plain') (percent r) (percent r') h
      exact ⟨congrArg Sum.inl (backwards_inj.mp same), (List.cons.inj rest).2⟩

/-- No type reads as a numeral behind a bracket. -/
theorem not_numeral {s : Shape} (plain : s.Plain) (below : TypeId → String) {r : List Char}
    (hr : Before r) (n : Nat) (r' : List Char) :
    backwards (s.text below) ++ r ≠ backwards n.repr ++ '(' :: r' := by
  intro h
  have bracket : ∀ c ∈ ('(' :: r').head?, isPlain c = false := (before_bracket r').not_plain
  have ends : s.ending = .word := by
    obtain ⟨c, rest, first, ending, -⟩ := exists_last plain below r
    obtain ⟨d, digits, numeral, digit⟩ := exists_numeral_eq_cons n
    rw [first, numeral] at h
    obtain ⟨rfl, -⟩ := List.cons.inj h
    rw [← ending, (ofChar_of_isPlain (isPlain_of_isDigit digit)).1]
  rcases endsAs ends with word | ⟨name, fields, rfl⟩
  · obtain ⟨same, -⟩ := run_append_inj (fun _ => isPlain_of_mem_word word below)
      (fun _ => isPlain_of_mem_numeral) hr.not_plain bracket h
    exact text_ne_repr word below n (backwards_inj.mp same)
  · rw [backwards_named] at h
    have percent : ∀ c ∈ ('%' :: r).head?, isPlain c = false := by
      rintro c ⟨rfl⟩
      decide
    obtain ⟨-, rest⟩ := run_append_inj (fun _ => isPlain_of_mem_name plain)
      (fun _ => isPlain_of_mem_numeral) percent bracket h
    exact absurd (List.cons.inj rest).1 (by decide)

end Shape

end ShaderReport
