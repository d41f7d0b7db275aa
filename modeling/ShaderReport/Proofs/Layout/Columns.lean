/-
# Offset comments in one column

Two kinds of lines end in an offset comment: the declaration of a leaf, and the label
that closes a struct.  Either is padded to the width that is left, and one block further
in the indent is four columns more and the width four columns less.  So indent and width
add up to the same column at every depth, as long as there is something left to take away
from and every text fits into what is left.

`Shows` says at which depth a declaration or a label stands: the struct itself is closed
at depth zero, and the fields of a block are one deeper than the block.  It follows the
fields of structs and knows nothing of columns.

## What decides

A comment starts behind the longer of the padded width and the text (`Entry.column`).
Hence all comments of a layout start where they should exactly if four columns for every
level, the closing brace and the text together never exceed the width
(`commentsAt_iff`).
-/
import ShaderReport.Proofs.Layout.Paths

namespace ShaderReport

namespace Text

@[simp] theorem length_blanks (n : Nat) : (blanks n).length = n := by
  simp [blanks]

@[simp] theorem length_padRight (width : Nat) (s : String) :
    (padRight width s).length = max width s.length := by
  rw [padRight, String.length_append, length_blanks]
  omega

end Text

/-- The offset and the size that a line notes behind its text, if it notes any. -/
def LayoutLine.figures? : LayoutLine → Option (UInt64 × Nat)
  | .leaf _ _ _ offset size | .closing _ _ _ offset size => some (offset, size)
  | _ => none

namespace Layout

/-! ## Entries -/

/-- What an offset comment belongs to: a declaration, or the label that closes a struct. -/
inductive Entry where
  | leaf (declaration : String)
  | closing (label : String)
deriving DecidableEq

namespace Entry

def text : Entry → String
  | .leaf declaration => declaration
  | .closing label => label

/-- The columns in front of the text: a closing brace and a blank, or none. -/
def lead : Entry → Nat
  | .leaf _ => 0
  | .closing _ => 2

/-- The line of an entry. -/
def line (indent width : Nat) (offset : UInt64) (size : Nat) : Entry → LayoutLine
  | .leaf declaration => .leaf indent width declaration offset size
  | .closing label => .closing indent width label offset size

/-- Where the comment starts on the line of an entry, the marker in front included. -/
def column (indent width : Nat) (e : Entry) : Nat :=
  1 + indent + e.lead + max (width - e.lead) e.text.length

theorem figures?_line (indent width : Nat) (offset : UInt64) (size : Nat) (e : Entry) :
    (e.line indent width offset size).figures? = some (offset, size) := by
  cases e with
  | leaf declaration => rfl
  | closing label => rfl

/-- The line of an entry as it is reported, up to its comment. -/
theorem exists_front (marker : Char) (indent width : Nat) (offset : UInt64) (size : Nat)
    (e : Entry) :
    ∃ front : String,
      marker.toString ++ (e.line indent width offset size).text marker =
        LayoutLine.noted marker front offset.toNat size ∧
      front.length = e.column indent width := by
  cases e with
  | leaf declaration =>
      refine ⟨marker.toString ++ Text.blanks indent ++ Text.padRight width declaration, ?_, ?_⟩
      · simp only [line, LayoutLine.text_leaf, LayoutLine.noted, String.append_assoc]
      · simp [column, lead, text]
  | closing label =>
      refine ⟨marker.toString ++ Text.blanks indent ++ "\x7d " ++
        Text.padRight (width - 2) label, ?_, ?_⟩
      · simp only [line, LayoutLine.text_closing, LayoutLine.noted, String.append_assoc]
      · have brace : "\x7d ".length = 2 := by decide
        simp [column, lead, text, brace]

end Entry

section Shows

variable (t : TypeTable) (facts : LayoutFacts)

/-- The entries in the layout of a struct under a label, and how deep each one stands. -/
inductive Shows : TypeId → (label : String) → (depth : Nat) → Entry → Prop
  | closing {st : TypeId} {label : String} {known : StructFacts} :
      usableFacts? t facts st = some known → Shows st label 0 (.closing label)
  | leaf {st : TypeId} {label : String} {i : Nat} {type : TypeId} {field : FieldFacts}
      {count : Nat} :
      FieldAt t facts st i type field → formOf t type field = .leaf count →
      Shows st label 1 (.leaf (declaration t type field count))
  | inside {st : TypeId} {label : String} {i : Nat} {type : TypeId} {field : FieldFacts}
      {s : TypeId} {count depth : Nat} {e : Entry} :
      FieldAt t facts st i type field → formOf t type field = .block s count →
      Shows s (fieldLabel t type field) depth e → Shows st label (depth + 1) e

end Shows

/-- A line is the line of an entry, so many blocks further in than the place says. -/
def StandsAt (place : Placement) (depth : Nat) (e : Entry) (line : LayoutLine) : Prop :=
  ∃ offset size, line = e.line (place.indent + 4 * depth) (place.width - 4 * depth) offset size

theorem StandsAt.figures? {place : Placement} {depth : Nat} {e : Entry} {line : LayoutLine}
    (h : StandsAt place depth e line) : ∃ figures, line.figures? = some figures := by
  obtain ⟨offset, size, rfl⟩ := h
  exact ⟨_, e.figures?_line _ _ _ _⟩

/-- One block further in, the place moves and the depth counts from there. -/
theorem standsAt_inner {place : Placement} {offset : UInt32} {depth : Nat} {e : Entry}
    {line : LayoutLine} :
    StandsAt (place.inner.advance offset) depth e line ↔ StandsAt place (depth + 1) e line := by
  have indent : place.indent + 4 + 4 * depth = place.indent + 4 * (depth + 1) := by omega
  have width : place.width - 4 - 4 * depth = place.width - 4 * (depth + 1) := by omega
  unfold StandsAt Placement.advance Placement.inner
  simp only [indent, width]

section Lines

variable {t : TypeTable} (ht : t.Ordered) {facts : LayoutFacts}

theorem fieldWith_of_leaf {block : TypeId → BlockPrinter} {type : TypeId} {field : FieldFacts}
    {count : Nat} (form : formOf t type field = .leaf count) (place : Placement) (size : Nat) :
    fieldWith t block type field place size =
      [(Entry.leaf (declaration t type field count)).line place.indent place.width
        (place.offset + field.offset.toUInt64) size] := by
  unfold fieldWith
  rw [form]
  rfl

theorem fieldWith_of_block {block : TypeId → BlockPrinter} {type : TypeId} {field : FieldFacts}
    {s : TypeId} {count : Nat} (form : formOf t type field = .block s count) (place : Placement)
    (size : Nat) :
    fieldWith t block type field place size =
      block s (fieldLabel t type field) (place.advance field.offset) 0 := by
  unfold fieldWith fieldLabel
  rw [form]
  rfl

theorem mem_zip_iff {st : TypeId} {known : StructFacts}
    (hk : usableFacts? t facts st = some known) {type : TypeId} {field : FieldFacts} :
    (type, field) ∈ (t.structFields st).zip known.fields ↔
      ∃ i, FieldAt t facts st i type field := by
  rw [List.mem_iff_getElem?]
  refine exists_congr ?_
  intro i
  rw [fieldAt_iff facts hk, List.mem_zipIdx_iff_getElem?]

include ht in
/-- A struct in a field is older than the struct around it. -/
theorem FieldAt.block_lt {st type s : TypeId} {i count : Nat} {field : FieldFacts}
    (h : FieldAt t facts st i type field) (form : formOf t type field = .block s count)
    (inTable : st < t.size) : s < st := by
  have older := h.lt ht
  exact Nat.lt_of_le_of_lt (le_of_formOf_block ht (Nat.lt_trans older inTable) form) older

include ht in
/-- A line with a comment closes the struct or belongs to one of its fields; the frame has
no comments. -/
theorem mem_block_iff {st : TypeId} (inTable : st < t.size) {label : String}
    {place : Placement} {size : Nat} {line : LayoutLine} {figures : UInt64 × Nat}
    (ends : line.figures? = some figures) :
    line ∈ block t facts st label place size ↔
      (∃ known, usableFacts? t facts st = some known) ∧
          line = (Entry.closing label).line place.indent place.width place.offset size ∨
        ∃ i type field, FieldAt t facts st i type field ∧
          line ∈ fieldWith t (block t facts) type field place.inner 0 := by
  rw [block_eq facts ht inTable, blockWith]
  cases hk : usableFacts? t facts st with
  | none =>
      refine iff_of_false ?_ ?_
      · intro member
        obtain rfl := List.mem_singleton.mp member
        cases ends
      · rintro (⟨⟨known, h⟩, -⟩ | ⟨i, type, field, ⟨known, h, -⟩, -⟩)
        · cases h
        · rw [hk] at h
          cases h
  | some known =>
      simp only [List.mem_append, List.mem_flatMap, List.mem_cons, List.not_mem_nil, or_false,
        Prod.exists, mem_zip_iff hk]
      constructor
      · rintro (((rfl | rfl | rfl) | ⟨type, field, ⟨i, hfield⟩, member⟩) | rfl | rfl | rfl)
        case inr.inr.inl => exact Or.inl ⟨⟨known, rfl⟩, rfl⟩
        case inl.inr => exact Or.inr ⟨i, type, field, hfield, member⟩
        all_goals cases ends
      · rintro (⟨-, rfl⟩ | ⟨i, type, field, hfield, member⟩)
        · exact Or.inr (Or.inr (Or.inl rfl))
        · exact Or.inl (Or.inr ⟨type, field, ⟨i, hfield⟩, member⟩)

include ht in
/-- Every line with a comment is the line of an entry at its depth. -/
theorem shows_of_mem_block {st : TypeId} (inTable : st < t.size) {label : String}
    {place : Placement} {size : Nat} {line : LayoutLine} {figures : UInt64 × Nat}
    (member : line ∈ block t facts st label place size) (ends : line.figures? = some figures) :
    ∃ depth e, Shows t facts st label depth e ∧ StandsAt place depth e line := by
  induction st using Nat.strongRecOn generalizing label place size with
  | ind st ih =>
    rcases (mem_block_iff ht inTable ends).mp member with
      ⟨⟨known, hk⟩, rfl⟩ | ⟨i, type, field, hfield, member⟩
    · exact ⟨0, .closing label, .closing hk, place.offset, size, rfl⟩
    · cases form : formOf t type field with
      | leaf count =>
          rw [fieldWith_of_leaf form] at member
          exact ⟨1, _, .leaf hfield form, _, _, List.mem_singleton.mp member⟩
      | block s count =>
          rw [fieldWith_of_block form] at member
          have older := hfield.block_lt ht form inTable
          obtain ⟨depth, e, shown, stands⟩ := ih s older (Nat.lt_trans older inTable) member
          exact ⟨depth + 1, e, .inside hfield form shown, standsAt_inner.mp stands⟩

include ht in
/-- Every entry has a line at its depth. -/
theorem exists_mem_block_of_shows {st : TypeId} {label : String} {depth : Nat} {e : Entry}
    (shown : Shows t facts st label depth e) (inTable : st < t.size) (place : Placement)
    (size : Nat) : ∃ line ∈ block t facts st label place size, StandsAt place depth e line := by
  induction shown generalizing place size with
  | @closing st label known hk =>
      have stands : StandsAt place 0 (.closing label) _ := ⟨place.offset, size, rfl⟩
      obtain ⟨figures, ends⟩ := stands.figures?
      exact ⟨_, (mem_block_iff ht inTable ends).mpr (Or.inl ⟨⟨known, hk⟩, rfl⟩), stands⟩
  | @leaf st label i type field count hfield form =>
      have stands : StandsAt place 1 (.leaf (declaration t type field count)) _ :=
        ⟨place.offset + field.offset.toUInt64, 0, rfl⟩
      obtain ⟨figures, ends⟩ := stands.figures?
      refine ⟨_, (mem_block_iff ht inTable ends).mpr (Or.inr ⟨i, type, field, hfield, ?_⟩), stands⟩
      rw [fieldWith_of_leaf form]
      exact List.mem_singleton.mpr rfl
  | @inside st label i type field s count depth e hfield form _ ih =>
      have older := hfield.block_lt ht form inTable
      obtain ⟨line, member, stands⟩ := ih (Nat.lt_trans older inTable)
        (place.inner.advance field.offset) 0
      obtain ⟨figures, ends⟩ := stands.figures?
      refine ⟨line, (mem_block_iff ht inTable ends).mpr (Or.inr ⟨i, type, field, hfield, ?_⟩),
        standsAt_inner.mp stands⟩
      rw [fieldWith_of_block form]
      exact member

end Lines

/-! ## The column of the comments -/

/-- On every line that names or closes something, the offset comment starts in the given
column of the line as it is reported. -/
def CommentsAt (marker : Char) (column : Nat) (lines : List LayoutLine) : Prop :=
  ∀ line ∈ lines, ∀ offset size, line.figures? = some (offset, size) →
    ∃ front : String,
      marker.toString ++ line.text marker =
        front ++ marker.toString ++ " Offset:" ++ Text.padLeft 5 offset.toNat.repr ++
          (if size = 0 then "" else " Size: " ++ Text.padLeft 5 size.repr) ∧
      front.length = column

theorem commentStart_line (marker : Char) (indent width : Nat) (offset : UInt64)
    (size column : Nat) (e : Entry) :
    (∃ front : String, marker.toString ++ (e.line indent width offset size).text marker =
        LayoutLine.noted marker front offset.toNat size ∧ front.length = column) ↔
      e.column indent width = column := by
  obtain ⟨front, text, length⟩ := e.exists_front marker indent width offset size
  constructor
  · rintro ⟨front', text', rfl⟩
    have same : front = front' := by
      simpa only [text, LayoutLine.noted, String.append_left_inj] using text'
    rw [← length, same]
  · rintro rfl
    exact ⟨front, text, length⟩

/-- Indent and width together stay the same, so only the text can move a comment. -/
theorem column_eq_iff (e : Entry) (indent width depth : Nat) :
    e.column (indent + 4 * depth) (width - 4 * depth) = 1 + indent + width ↔
      4 * depth + e.lead + e.text.length ≤ width := by
  unfold Entry.column
  omega

/-- All comments of a layout start in one column exactly if every entry fits into what is
left of the width at its depth. -/
theorem commentsAt_iff {t : TypeTable} (ht : t.Ordered) (facts : LayoutFacts) {st : TypeId}
    (inTable : st < t.size) (whole : String) (place : Placement) (size : Nat) (marker : Char) :
    CommentsAt marker (1 + place.indent + place.width) (block t facts st whole place size) ↔
      ∀ depth e, Shows t facts st whole depth e →
        4 * depth + e.lead + e.text.length ≤ place.width := by
  constructor
  · intro aligned depth e shown
    obtain ⟨line, member, offset, shownSize, rfl⟩ :=
      exists_mem_block_of_shows ht shown inTable place size
    have starts := aligned _ member _ _ (e.figures?_line _ _ _ _)
    exact (column_eq_iff e _ _ _).mp ((commentStart_line marker _ _ _ _ _ e).mp starts)
  · intro fits line member offset shownSize ends
    obtain ⟨depth, e, shown, offset, shownSize, rfl⟩ :=
      shows_of_mem_block ht inTable member ends
    rw [e.figures?_line] at ends
    cases ends
    exact (commentStart_line marker _ _ _ _ _ e).mpr
      ((column_eq_iff e _ _ _).mpr (fits depth e shown))

/-- If at every depth there is room for a closing brace, and every declaration and every
label fits into what is left there, all offset comments of the layout start in one column,
behind the marker, the indent and the width of the whole layout. -/
theorem offset_comments_line_up {t : TypeTable} (ht : t.Built) (facts : LayoutFacts)
    {st : TypeId} (hst : t.isStruct st) (whole : String) (place : Placement) (size : Nat)
    (room : ∀ depth e, Shows t facts st whole depth e → 4 * depth + 2 ≤ place.width)
    (leaves : ∀ depth declaration, Shows t facts st whole depth (.leaf declaration) →
      declaration.length ≤ place.width - 4 * depth)
    (labels : ∀ depth label, Shows t facts st whole depth (.closing label) →
      label.length ≤ place.width - 4 * depth - 2) (marker : Char) :
    CommentsAt marker (1 + place.indent + place.width)
      (block t facts st whole place size) := by
  rw [commentsAt_iff ht.ordered facts (TypeTable.lt_size_of_isStruct hst)]
  intro depth e shown
  have enough := room depth e shown
  cases e with
  | leaf declaration =>
      have fits := leaves depth declaration shown
      simp only [Entry.lead, Entry.text]
      omega
  | closing label =>
      have fits := labels depth label shown
      simp only [Entry.lead, Entry.text]
      omega

/-- A declaration stands two blocks in, and all comments of the layout stand in one column. -/
theorem offset_comments_line_up_nested :
    nestedTable.Built ∧ nestedTable.isStruct 7 ∧
      Shows nestedTable nestedFacts 7 "Scene" 2 (.leaf "float power;") ∧
      CommentsAt ';' 54 (block nestedTable nestedFacts 7 "Scene" ⟨256, 3, 50⟩ 88) := by
  have built : nestedTable.Built := ⟨nestedRequests, by decide +kernel, rfl⟩
  have struct : nestedTable.isStruct 7 := by decide +kernel
  have lights : FieldAt nestedTable nestedFacts 7 1 2 { name := "lights", offset := 16 } :=
    ⟨nestedFacts.structs[1], by decide +kernel⟩
  have power : FieldAt nestedTable nestedFacts 1 0 0
      { name := "power", offset := 4, component := .f32 } :=
    ⟨nestedFacts.structs[0], by decide +kernel⟩
  have element : formOf nestedTable 2 { name := "lights", offset := 16 } = .block 1 2 := by
    decide +kernel
  have scalar : formOf nestedTable 0 { name := "power", offset := 4, component := .f32 } =
      .leaf 0 := by decide +kernel
  have text : declaration nestedTable 0 { name := "power", offset := 4, component := .f32 } 0 =
      "float power;" := by decide +kernel
  have deep : Shows nestedTable nestedFacts 7 "Scene" 2 (.leaf "float power;") := by
    rw [← text]
    exact .inside lights element (.leaf power scalar)
  have small : ((block nestedTable nestedFacts 7 "Scene" ⟨256, 3, 50⟩ 88).all fun
      | .leaf indent _ text _ _ | .closing indent _ text _ _ => indent ≤ 11 && text.length ≤ 24
      | _ => true) = true := by decide +kernel
  have shallow : ∀ depth e, Shows nestedTable nestedFacts 7 "Scene" depth e →
      depth ≤ 2 ∧ e.text.length ≤ 24 := by
    intro depth e shown
    obtain ⟨line, member, offset, size, rfl⟩ := exists_mem_block_of_shows built.ordered shown
      (TypeTable.lt_size_of_isStruct struct) ⟨256, 3, 50⟩ 88
    have bounds := List.all_eq_true.mp small _ member
    cases e with
    | leaf declaration | closing label =>
        simp only [Entry.line, Bool.and_eq_true, decide_eq_true_eq] at bounds
        simp only [Entry.text]
        omega
  refine ⟨built, struct, deep, offset_comments_line_up built nestedFacts struct "Scene"
    ⟨256, 3, 50⟩ 88 ?_ ?_ ?_ ';'⟩
  · intro depth e shown
    have bounds := shallow depth e shown
    show 4 * depth + 2 ≤ 50
    omega
  · intro depth declaration shown
    have bounds : _ ∧ declaration.length ≤ 24 := shallow depth _ shown
    show declaration.length ≤ 50 - 4 * depth
    omega
  · intro depth label shown
    have bounds : _ ∧ label.length ≤ 24 := shallow depth _ shown
    show label.length ≤ 50 - 4 * depth - 2
    omega

end Layout

end ShaderReport
