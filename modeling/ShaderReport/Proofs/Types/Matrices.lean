/-
# Matrices are what they are called

A matrix is a struct that is known by its name alone, and a struct whose name is taken is
not made again, whatever its fields.  So a request for a matrix could be answered with
some other struct that has the name by then.

It is not, as long as free matrix names are only taken by requests for matrices of numbers
(`Request.Honest`).  Read from its end, a matrix name gives up its columns, its rows and
the text of its element (`matrixName_inj`), and the text of a number says which number it
is (`eq_of_text_number`).  So every honest run keeps what `Faithful` says: a struct with a
matrix name is the matrix that the name spells.  A request under a name that is taken is
then answered with the matrix that was asked for (`matrixStruct_of_faithful`), and two
requests are answered with one struct exactly if they spell one name
(`matrix_fst_eq_iff`).
-/
import ShaderReport.Proofs.Text.Lines
import ShaderReport.Proofs.Types.Growth
import ShaderReport.Proofs.Types.Unambiguous

namespace ShaderReport

open Text

namespace TypeTable

/-! ## Matrix names -/

theorem beginsWith_matrixName (element : String) (rows cols : UInt32) :
    Text.beginsWith matrixNameStart (matrixName element rows cols) = true := by
  simp only [matrixName, String.append_assoc]
  exact Text.beginsWith_append _ _

theorem backwards_matrixName (element : String) (rows cols : UInt32) :
    backwards (matrixName element rows cols) = backwards cols.toNat.repr ++
      '.' :: (backwards rows.toNat.repr ++ '.' :: (backwards element ++
        backwards matrixNameStart)) := by
  simp only [matrixName, backwards_append]
  rfl

/-- The numerals of a matrix name end at its last two dots; the element may hold others. -/
theorem matrixName_inj {element element' : String} {rows cols rows' cols' : UInt32}
    (h : matrixName element rows cols = matrixName element' rows' cols') :
    element = element' ∧ rows = rows' ∧ cols = cols' := by
  have read := backwards_inj.mpr h
  rw [backwards_matrixName, backwards_matrixName] at read
  obtain ⟨sameCols, front⟩ := numeral_append_inj (by decide) (by decide) read
  obtain ⟨sameRows, front⟩ := numeral_append_inj (by decide) (by decide)
    (List.tail_eq_of_cons_eq front)
  have elements := List.append_cancel_right (List.tail_eq_of_cons_eq front)
  exact ⟨backwards_inj.mp elements, UInt32.toNat_inj.mp sameRows, UInt32.toNat_inj.mp sameCols⟩

/-! ## Matrix structs -/

theorem shape?_append (t : TypeTable) (s : Shape) :
    TypeTable.shape? ⟨t.shapes ++ [s]⟩ t.size = some s :=
  List.getElem?_concat_length

theorem intern_of_absent {t : TypeTable} {s : Shape} (h : t.find? s = none) :
    t.intern s = (t.size, ⟨t.shapes ++ [s]⟩) := by
  rw [intern, h]

/-- A literal type that was asked for stands at the place answered. -/
theorem shape?_intern_literal (t : TypeTable) {s : Shape} (literal : s.structName? = none) :
    (t.intern s).2.shape? (t.intern s).1 = some s := by
  rcases t.intern_cases s with ⟨id, found, e⟩ | ⟨_, e⟩
  · obtain ⟨s', there, same⟩ := key_of_find? found
    rw [Shape.key_of_literal literal] at same
    rw [e, there, Shape.eq_of_key same]
  · rw [e]
    exact t.shape?_append s

/-- Interning a literal type takes no name. -/
theorem find?_intern_literal {t : TypeTable} {name : String} {fields : List TypeId} {s : Shape}
    (free : t.find? (.struct (some name) fields) = none) (literal : s.structName? = none) :
    (t.intern s).2.find? (.struct (some name) fields) = none := by
  rcases t.intern_cases s with ⟨_, _, e⟩ | ⟨_, e⟩
  · rw [e]
    exact free
  · have other : s.key ≠ (Shape.struct (some name) fields).key := by
      rw [Shape.key_of_literal literal]
      exact Sum.inr_ne_inl
    rw [e, find?_append, free, if_neg other]
    rfl

/-- A matrix struct with all that it is made from. -/
def MatrixStruct (t : TypeTable) (element : TypeId) (rows cols : UInt32) (m : TypeId) : Prop :=
  ∃ name row storage,
    t.shape? m = some (.struct (some (matrixName name rows cols)) [storage]) ∧
    t.shape? storage = some (.array row (.ofNat rows.toNat)) ∧
    t.shape? row = some (.vector element cols)

theorem MatrixStruct.grows {t t' : TypeTable} {element m : TypeId} {rows cols : UInt32}
    (h : t.MatrixStruct element rows cols m) (grows : t.Grows t') :
    t'.MatrixStruct element rows cols m := by
  obtain ⟨name, row, storage, struct, array, vector⟩ := h
  refine ⟨name, row, storage, ?_, ?_, ?_⟩
  · rw [grows.shape? (lt_size_of_shape? struct), struct]
  · rw [grows.shape? (lt_size_of_shape? array), array]
  · rw [grows.shape? (lt_size_of_shape? vector), vector]

/-- What a request for a matrix builds under a name that is free. -/
theorem matrixStruct_matrix {t : TypeTable} {element : TypeId} {rows cols : UInt32}
    (free : t.structByName? (matrixName (t.text element) rows cols) = none) :
    (t.matrix element rows cols).2.MatrixStruct element rows cols
      (t.matrix element rows cols).1 := by
  let name := matrixName (t.text element) rows cols
  let row := t.intern (.vector element cols)
  let storage := row.2.intern (.array row.1 (.ofNat rows.toNat))
  have vector : row.2.shape? row.1 = some (.vector element cols) := t.shape?_intern_literal rfl
  have array : storage.2.shape? storage.1 = some (.array row.1 (.ofNat rows.toNat)) :=
    row.2.shape?_intern_literal rfl
  have fresh : storage.2.find? (.struct (some name) [storage.1]) = none :=
    find?_intern_literal (find?_intern_literal free rfl) rfl
  -- so the struct is appended, and the array and the vector stay where they are
  have built : t.matrix element rows cols =
      (storage.2.size, ⟨storage.2.shapes ++ [.struct (some name) [storage.1]]⟩) :=
    intern_of_absent fresh
  have appended : storage.2.Grows ⟨storage.2.shapes ++ [.struct (some name) [storage.1]]⟩ :=
    ⟨_, rfl⟩
  have kept : row.2.Grows storage.2 := grows_intern row.2.grows_refl _
  rw [built]
  refine ⟨_, row.1, storage.1, storage.2.shape?_append _, ?_, ?_⟩
  · rw [appended.shape? (lt_size_of_shape? array), array]
  · have there := kept.shape? (lt_size_of_shape? vector)
    rw [vector] at there
    rw [appended.shape? (lt_size_of_shape? there), there]

section Struct

variable {t : TypeTable} {element m : TypeId} {rows cols : UInt32}
  (h : t.MatrixStruct element rows cols m)
include h

theorem MatrixStruct.lt_size : m < t.size := by
  obtain ⟨_, _, _, struct, -⟩ := h
  exact lt_size_of_shape? struct

theorem MatrixStruct.isMatrix : t.isMatrix m = true := by
  obtain ⟨name, _, _, struct, -⟩ := h
  rw [TypeTable.isMatrix, structName?, struct]
  exact beginsWith_matrixName name rows cols

theorem MatrixStruct.exists_storage : ∃ storage row, t.structFields m = [storage] ∧
    t.shape? storage = some (.array row (.ofNat rows.toNat)) ∧
    t.shape? row = some (.vector element cols) := by
  obtain ⟨_, row, storage, struct, array, vector⟩ := h
  refine ⟨storage, row, ?_, array, vector⟩
  rw [structFields, struct]
  rfl

theorem MatrixStruct.matrixElement? : t.matrixElement? m = some element := by
  have named := h.isMatrix
  obtain ⟨storage, row, fields, array, vector⟩ := h.exists_storage
  have rowOf : t.arrayElement? storage = some row := by
    rw [arrayElement?, array]
    rfl
  rw [TypeTable.matrixElement?, if_pos named, fields]
  show (t.arrayElement? storage).bind t.vectorElement? = some element
  rw [rowOf, Option.bind_some, vectorElement?, vector]
  rfl

end Struct

end TypeTable

/-! ## Numbers -/

/-- An integer or a floating-point number, of any width. -/
def Shape.isNumber : Shape → Bool
  | .integer _ | .half | .float | .double => true
  | _ => false

theorem Shape.isWord_of_isNumber {s : Shape} (h : s.isNumber = true) : s.isWord = true := by
  cases s with
  | integer _ | half | float | double => rfl
  | _ => cases h

namespace TypeTable

def isNumber (t : TypeTable) (id : TypeId) : Bool := (t.shape? id).any Shape.isNumber

theorem exists_shape?_of_isNumber {t : TypeTable} {id : TypeId} (h : t.isNumber id = true) :
    ∃ s, t.shape? id = some s ∧ s.isNumber = true := by
  cases hs : t.shape? id with
  | none =>
      rw [isNumber, hs] at h
      cases h
  | some s =>
      rw [isNumber, hs] at h
      exact ⟨s, rfl, h⟩

theorem lt_size_of_isNumber {t : TypeTable} {id : TypeId} (h : t.isNumber id = true) :
    id < t.size := by
  obtain ⟨s, there, -⟩ := exists_shape?_of_isNumber h
  exact lt_size_of_shape? there

theorem Grows.isNumber {t t' : TypeTable} (grows : t.Grows t') {id : TypeId}
    (h : t.isNumber id = true) : t'.isNumber id = true := by
  rw [TypeTable.isNumber, grows.shape? (lt_size_of_isNumber h)]
  exact h

/-- The text of a number is a word, and no two types are one word. -/
theorem eq_of_text_number {t : TypeTable} (ordered : t.Ordered) (distinct : t.Distinct)
    {id id' : TypeId} (h : t.isNumber id = true) (h' : t.isNumber id' = true)
    (same : t.text id = t.text id') : id = id' := by
  obtain ⟨s, there, number⟩ := exists_shape?_of_isNumber h
  obtain ⟨s', there', number'⟩ := exists_shape?_of_isNumber h'
  rw [text_eq ordered there, text_eq ordered there'] at same
  have shapes : s = s' := by
    rw [← Shape.ofWord_text (Shape.isWord_of_isNumber number) t.text, same,
      Shape.ofWord_text (Shape.isWord_of_isNumber number') t.text]
  exact distinct id id' s s' there there' (congrArg Shape.key shapes)

/-! ## Which struct a request for a matrix is answered with -/

theorem grows_matrix (t : TypeTable) (element : TypeId) (rows cols : UInt32) :
    t.Grows (t.matrix element rows cols).2 :=
  grows_intern (grows_intern (grows_intern t.grows_refl _) _) _

/-- An old place is answered exactly if a search finds it. -/
theorem intern_fst_eq_iff {t : TypeTable} {s : Shape} {id : TypeId} (h : id < t.size) :
    (t.intern s).1 = id ↔ t.find? s = some id := by
  rcases t.intern_cases s with ⟨found, e, answer⟩ | ⟨absent, answer⟩
  · rw [e, answer, Option.some_inj]
  · rw [absent, answer]
    constructor
    · rintro rfl
      exact absurd h (Nat.lt_irrefl _)
    · intro found
      cases found

/-- Only the name decides which of the structs that are there is answered. -/
theorem matrix_fst_eq_iff {t : TypeTable} (distinct : t.Distinct) {m : TypeId} (h : m < t.size)
    (element : TypeId) (rows cols : UInt32) :
    (t.matrix element rows cols).1 = m ↔
      t.structName? m = some (matrixName (t.text element) rows cols) := by
  let row := t.intern (.vector element cols)
  let storage := row.2.intern (.array row.1 (.ofNat rows.toNat))
  have grows : t.Grows storage.2 := grows_intern (grows_intern t.grows_refl _) _
  have later : storage.2.Distinct := distinct_intern (distinct_intern distinct _) _
  have inside : m < storage.2.size := Nat.lt_of_lt_of_le h grows.size_le
  rw [← grows.structName? h, ← find?_named_iff later, ← intern_fst_eq_iff inside]
  exact Iff.rfl

/-- The struct answered has the name that was asked for. -/
theorem structName?_intern (t : TypeTable) (name : String) (fields : List TypeId) :
    (t.intern (.struct (some name) fields)).2.structName?
      (t.intern (.struct (some name) fields)).1 = some name := by
  rcases t.intern_cases (.struct (some name) fields) with ⟨id, found, e⟩ | ⟨_, e⟩
  · rw [e]
    exact structName?_eq_some_iff.mpr (key_of_find? found)
  · rw [e, structName?, shape?_append]
    rfl

theorem structName?_matrix (t : TypeTable) (element : TypeId) (rows cols : UInt32) :
    (t.matrix element rows cols).2.structName? (t.matrix element rows cols).1 =
      some (matrixName (t.text element) rows cols) :=
  structName?_intern ..

end TypeTable

/-! ## Honest requests -/

namespace Request

open TypeTable

/-- The name of the struct that is asked for. -/
def structName? (t : TypeTable) : Request → Option String
  | .shape s => s.structName?
  | .matrix element rows cols => some (matrixName (t.text element) rows cols)

/-- Whether a matrix of numbers is asked for. -/
def ofNumbers (t : TypeTable) : Request → Bool
  | .shape _ => false
  | .matrix element _ _ => t.isNumber element

/-- A matrix name that is free is only taken for a matrix of numbers. -/
def Honest (t : TypeTable) (r : Request) : Prop :=
  ∀ name ∈ r.structName? t, Text.beginsWith matrixNameStart name = true →
    t.structByName? name = none → r.ofNumbers t = true

instance (t : TypeTable) (r : Request) : Decidable (r.Honest t) :=
  inferInstanceAs (Decidable (∀ name ∈ r.structName? t, _))

end Request

namespace TypeTable

/-- An admissible run of honest requests. -/
def AdmitsHonest (t : TypeTable) : List Request → Prop
  | [] => True
  | r :: rest => t.HasAll r.components ∧ r.Honest t ∧ (r.answer t).2.AdmitsHonest rest

instance decAdmitsHonest : (t : TypeTable) → (rs : List Request) → Decidable (t.AdmitsHonest rs)
  | _, [] => .isTrue trivial
  | t, r :: rest =>
      have := decAdmitsHonest (r.answer t).2 rest
      inferInstanceAs (Decidable (t.HasAll r.components ∧ r.Honest t ∧
        (r.answer t).2.AdmitsHonest rest))

theorem AdmitsHonest.admits {t : TypeTable} {rs : List Request} (h : t.AdmitsHonest rs) :
    t.Admits rs := by
  induction rs generalizing t with
  | nil => trivial
  | cons r rest ih => exact ⟨h.1, ih h.2.2⟩

/-! ## What honest runs keep -/

/-- The name spells a matrix of numbers, and the struct at the place is that matrix. -/
def Spells (t : TypeTable) (name : String) (m : TypeId) : Prop :=
  ∃ element rows cols, t.isNumber element = true ∧
    name = matrixName (t.text element) rows cols ∧ t.MatrixStruct element rows cols m

theorem Spells.grows {t t' : TypeTable} {name : String} {m : TypeId} (h : t.Spells name m)
    (grows : t.Grows t') : t'.Spells name m := by
  obtain ⟨element, rows, cols, number, spelled, struct⟩ := h
  refine ⟨element, rows, cols, grows.isNumber number, ?_, struct.grows grows⟩
  rw [grows.text (lt_size_of_isNumber number)]
  exact spelled

/-- Every struct with a matrix name is the matrix that its name spells. -/
def Faithful (t : TypeTable) : Prop :=
  ∀ m name, t.structName? m = some name → Text.beginsWith matrixNameStart name = true →
    t.Spells name m

theorem faithful_empty : Faithful {} := by
  intro m name named
  simp [structName?, shape?] at named

/-- A struct that is there after interning was there, or it is the one asked for and its
name was free. -/
theorem structName?_intern_cases {t : TypeTable} {s : Shape} {id : TypeId} {name : String}
    (h : (t.intern s).2.structName? id = some name) :
    t.structName? id = some name ∨
      s.structName? = some name ∧ t.structByName? name = none ∧ (t.intern s).1 = id := by
  obtain ⟨found, there, named⟩ := Option.bind_eq_some_iff.mp h
  rcases t.intern_cases s with ⟨_, _, e⟩ | ⟨absent, e⟩
  · rw [e] at there
    exact Or.inl (Option.bind_eq_some_iff.mpr ⟨found, there, named⟩)
  · rcases shape?_intern_cases there with old | ⟨rfl, rfl⟩
    · exact Or.inl (Option.bind_eq_some_iff.mpr ⟨found, old, named⟩)
    · refine Or.inr ⟨named, ?_, by rw [e]⟩
      rw [t.structByName?_eq name [], ← absent]
      exact find?_congr (Shape.key_of_named named).symm

theorem faithful_intern {t : TypeTable} (ht : t.Faithful) {s : Shape}
    (taken : ∀ name ∈ s.structName?, Text.beginsWith matrixNameStart name = true →
      t.structByName? name ≠ none) : (t.intern s).2.Faithful := by
  intro m name named start
  rcases structName?_intern_cases named with old | ⟨asked, free, -⟩
  · exact (ht m name old start).grows (grows_intern t.grows_refl s)
  · exact absurd free (taken name asked start)

theorem faithful_intern_literal {t : TypeTable} (ht : t.Faithful) {s : Shape}
    (literal : s.structName? = none) : (t.intern s).2.Faithful := by
  refine faithful_intern ht ?_
  intro name asked
  rw [literal] at asked
  cases asked

/-- A name that is free was free. -/
theorem Grows.structByName?_none {t t' : TypeTable} (grows : t.Grows t') {name : String}
    (free : t'.structByName? name = none) : t.structByName? name = none := by
  rw [structByName?_eq _ _ [], find?_eq_none_iff] at free ⊢
  intro id found there
  refine free id found ?_
  rw [grows.shape? (lt_size_of_shape? there), there]

theorem faithful_matrix {t : TypeTable} (ht : t.Faithful) {element : TypeId} {rows cols : UInt32}
    (number : t.structByName? (matrixName (t.text element) rows cols) = none →
      t.isNumber element = true) : (t.matrix element rows cols).2.Faithful := by
  let row := t.intern (.vector element cols)
  let storage := row.2.intern (.array row.1 (.ofNat rows.toNat))
  have inner : storage.2.Faithful :=
    faithful_intern_literal (faithful_intern_literal ht rfl) rfl
  have grows : t.Grows storage.2 := grows_intern (grows_intern t.grows_refl _) _
  have all := t.grows_matrix element rows cols
  intro m name named start
  rcases structName?_intern_cases named with old | ⟨asked, free, place⟩
  · exact (inner m name old start).grows (grows_intern storage.2.grows_refl _)
  · obtain rfl := Option.some.inj asked
    -- the vector and the array have no names, so this one was free at the start
    have free := grows.structByName?_none free
    have number := number free
    refine ⟨element, rows, cols, all.isNumber number, ?_, ?_⟩
    · rw [all.text (lt_size_of_isNumber number)]
    · rw [← place]
      exact matrixStruct_matrix free

theorem faithful_answer {t : TypeTable} (ht : t.Faithful) {r : Request} (honest : r.Honest t) :
    (r.answer t).2.Faithful := by
  cases r with
  | shape s =>
      refine faithful_intern ht ?_
      intro name asked start free
      cases honest name asked start free
  | matrix element rows cols =>
      exact faithful_matrix ht (honest _ rfl (beginsWith_matrixName ..))

theorem faithful_run {t : TypeTable} (ht : t.Faithful) {rs : List Request}
    (h : t.AdmitsHonest rs) : (t.run rs).Faithful := by
  induction rs generalizing t with
  | nil => exact ht
  | cons r rest ih => exact ih (faithful_answer ht h.2.1) h.2.2

/-- A name that is taken belongs to the matrix that it spells, and that is the one asked
for. -/
theorem matrixStruct_of_faithful {t : TypeTable} (ordered : t.Ordered) (distinct : t.Distinct)
    (faithful : t.Faithful) {element : TypeId} (number : t.isNumber element = true)
    (rows cols : UInt32) :
    (t.matrix element rows cols).2.MatrixStruct element rows cols
      (t.matrix element rows cols).1 := by
  cases taken : t.structByName? (matrixName (t.text element) rows cols) with
  | none => exact matrixStruct_matrix taken
  | some m =>
      rw [t.structByName?_eq _ [], find?_named_iff distinct] at taken
      obtain ⟨element', rows', cols', number', spelled, struct⟩ :=
        faithful m _ taken (beginsWith_matrixName ..)
      obtain ⟨texts, rfl, rfl⟩ := matrixName_inj spelled
      obtain rfl := eq_of_text_number ordered distinct number number' texts
      have answered := (matrix_fst_eq_iff distinct struct.lt_size ..).mpr taken
      rw [answered]
      exact struct.grows (t.grows_matrix ..)

/-! ## Whole runs -/

/-- A matrix of numbers is a matrix with that element, holds so many rows of so many of
them and nothing else, and is answered to no other request for a matrix of numbers,
whatever is asked later. -/
theorem matrix_faithful {rs more : List Request} {t : TypeTable} {element m : TypeId}
    {rows cols : UInt32} (before : AdmitsHonest {} rs)
    (number : (run {} rs).isNumber element = true)
    (made : (run {} rs).matrix element rows cols = (m, t)) (later : t.Admits more) :
    (t.run more).isMatrix m = true ∧ (t.run more).matrixElement? m = some element ∧
    (∃ storage row, (t.run more).structFields m = [storage] ∧
      (t.run more).shape? storage = some (.array row (.ofNat rows.toNat)) ∧
      (t.run more).shape? row = some (.vector element cols)) ∧
    ∀ element' rows' cols', (t.run more).isNumber element' = true →
      (((t.run more).matrix element' rows' cols').1 = m ↔
        element' = element ∧ rows' = rows ∧ cols' = cols) := by
  have built : (run {} rs).Built := ⟨rs, before.admits, rfl⟩
  have inTable := lt_size_of_isNumber number
  have kept : ∀ {P : TypeTable → Prop},
      (∀ t s, P t → t.HasAll s.components → P (t.intern s).2) → P (run {} rs) →
      P (t.run more) := by
    intro P keeps start
    have after := matrix_keeps keeps start inTable rows cols
    rw [made] at after
    exact run_keeps keeps after later
  have ordered : (t.run more).Ordered := kept (fun _ _ => ordered_intern) built.ordered
  have distinct : (t.run more).Distinct :=
    kept (fun _ s h _ => distinct_intern h s) built.distinct
  have grows : (run {} rs).Grows (t.run more) :=
    kept (fun _ s h _ => grows_intern h s) (grows_refl _)
  -- the struct answered, and its name, as they are found at the end of the run
  have struct := matrixStruct_of_faithful built.ordered built.distinct
    (faithful_run faithful_empty before) number rows cols
  have named := structName?_matrix (run {} rs) element rows cols
  rw [made] at struct named
  rw [← (grows_run later).structName? struct.lt_size, ← grows.text inTable] at named
  have struct := struct.grows (grows_run later)
  refine ⟨struct.isMatrix, struct.matrixElement?, struct.exists_storage, ?_⟩
  intro element' rows' cols' number'
  rw [matrix_fst_eq_iff distinct struct.lt_size, named, Option.some_inj]
  constructor
  · intro spelled
    obtain ⟨texts, rfl, rfl⟩ := matrixName_inj spelled
    have same := eq_of_text_number ordered distinct (grows.isNumber number) number' texts
    exact ⟨same.symm, rfl, rfl⟩
  · rintro ⟨rfl, rfl, rfl⟩
    rfl

/-- Matrices of integers and of floats; the name of the last one is asked for once more,
for a struct with other fields. -/
def matricesAndNames : List Request :=
  [.shape .float, .shape (.integer 1), .shape (.integer 16), .matrix 1 16 4, .matrix 0 2 3,
   .shape (.struct (some "class.matrix.float.2.3") [0, 0])]

theorem matrix_faithful_retaken :
    (run {} matricesAndNames).matrix 0 2 3 = (8, run {} matricesAndNames) ∧
    ((run {} matricesAndNames).run [.matrix 2 1 64]).matrixElement? 8 = some 0 ∧
    (((run {} matricesAndNames).run [.matrix 2 1 64]).matrix 0 3 2).1 ≠ 8 := by
  have made : (run {} matricesAndNames).matrix 0 2 3 = (8, run {} matricesAndNames) := by
    decide +kernel
  have later : (run {} matricesAndNames).Admits [.matrix 2 1 64] := by decide +kernel
  obtain ⟨-, element, -, only⟩ := matrix_faithful (by decide +kernel) (by decide +kernel) made later
  refine ⟨made, element, ?_⟩
  intro same
  obtain ⟨-, rows, -⟩ := (only 0 3 2 (by decide +kernel)).mp same
  exact absurd rows (by decide)

/-- A struct that took the name before is answered as the matrix, and has no element. -/
example : (run {} [.shape .float, .shape (.struct (some "class.matrix.float.2.3") [0, 0]),
      .matrix 0 2 3]).matrixElement? 1 = none ∧
    ((run {} [.shape .float, .shape (.struct (some "class.matrix.float.2.3") [0, 0])]).matrix
      0 2 3).1 = 1 := by
  decide +kernel

end TypeTable

end ShaderReport
