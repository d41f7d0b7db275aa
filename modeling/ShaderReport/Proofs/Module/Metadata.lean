/-
# Metadata nodes are numbered through

The metadata of a listing is written in two loops.  The first writes a head for every
name and counts the nodes on the way; the second writes the nodes of all names, one
behind the other, and numbers them by their place.  Nothing but the counting connects
them.

A head lists its references, and these are read back from the text of the head alone:
they stand behind the last opening brace, whatever the name before it holds
(`referencesOf_head`).  Read in order, the heads list every number once
(`flatMap_referencesOf_heads`), and the number that a head starts from is the number of
nodes that belong to the names before it (`getElem?_metadataHeads`).  That is where the
second loop has come to when it writes them (`getElem?_operandsOf`).
-/
import ShaderReport.Proofs.Module.Printing
import ShaderReport.Proofs.Text.Backwards
import ShaderReport.Proofs.Text.Lines

namespace ShaderReport

/-! ## Reading references -/

namespace Text

/-- The numbers in a text, each of them behind an exclamation mark. -/
def references : List Char → List Nat
  | [] => []
  | c :: rest =>
    if c = '!' then Nat.ofDigitChars 10 (rest.takeWhile Char.isDigit) 0 :: references rest
    else references rest

/-- The numbers behind the last opening brace of a line, which ends in a closing one. -/
def referencesOf (line : String) : List Nat :=
  references (((backwards line).drop 1).takeWhile (· ≠ '\x7b')).reverse

theorem references_append {front : List Char} (h : '!' ∉ front) (rest : List Char) :
    references (front ++ rest) = references rest := by
  induction front with
  | nil => rfl
  | cons c front ih =>
      obtain ⟨hc, hfront⟩ := List.ne_and_not_mem_of_not_mem_cons h
      rw [List.cons_append, references, if_neg (Ne.symm hc), ih hfront]

theorem not_mem_repr {c : Char} (h : c.isDigit = false) (n : Nat) : c ∉ n.repr.toList := by
  intro member
  rw [isDigit_of_mem_repr member] at h
  cases h

/-- A numeral ends at the first character that is no digit. -/
theorem references_numeral (n : Nat) {rest : List Char}
    (h : ∀ c ∈ rest.head?, c.isDigit = false) :
    references ('!' :: (n.repr.toList ++ rest)) = n :: references rest := by
  have digits : (n.repr.toList ++ rest).takeWhile Char.isDigit = n.repr.toList := by
    rw [List.takeWhile_append_of_pos fun c hc => isDigit_of_mem_repr hc]
    cases rest with
    | nil => rw [List.takeWhile_nil, List.append_nil]
    | cons c rest =>
        have other : ¬ c.isDigit = true := by
          rw [h c rfl]
          exact Bool.false_ne_true
        rw [List.takeWhile_cons_of_neg other, List.append_nil]
  rw [references, if_pos rfl, digits, references_append (not_mem_repr rfl n), Nat.toList_repr,
    Nat.ofDigitChars_ten_toDigits]

/-- How a node is referred to. -/
def reference (k : Nat) : String := "!" ++ k.repr

theorem toList_reference (k : Nat) : (reference k).toList = '!' :: k.repr.toList := by
  rw [reference, String.toList_append]
  rfl

/-- All references but the last have a comma behind them. -/
theorem commaSeparated_references (k l : Nat) (rest : List Nat) :
    (commaSeparated ((k :: l :: rest).map reference)).toList =
      '!' :: (k.repr.toList ++
        (", ".toList ++ (commaSeparated ((l :: rest).map reference)).toList)) := by
  rw [List.map_cons, List.map_cons, commaSeparated_cons_cons, ← List.map_cons,
    String.toList_append, String.toList_append, toList_reference, List.append_assoc]
  rfl

theorem references_commaSeparated (numbers : List Nat) :
    references (commaSeparated (numbers.map reference)).toList = numbers := by
  induction numbers with
  | nil => rfl
  | cons k rest ih =>
      cases rest with
      | nil =>
          have alone : commaSeparated ([k].map reference) = reference k := String.append_empty
          rw [alone, toList_reference, ← List.append_nil k.repr.toList,
            references_numeral k (by simp)]
          rfl
      | cons l rest =>
          have comma : ∀ c ∈ (", ".toList ++
              (commaSeparated ((l :: rest).map reference)).toList).head?, c.isDigit = false := by
            intro c hc
            cases hc
            rfl
          rw [commaSeparated_references, references_numeral k comma,
            references_append (by decide), ih]

theorem not_mem_commaSeparated {c : Char} (digit : c.isDigit = false) (mark : c ≠ '!')
    (comma : c ∉ ", ".toList) (numbers : List Nat) :
    c ∉ (commaSeparated (numbers.map reference)).toList := by
  induction numbers with
  | nil => exact List.not_mem_nil
  | cons k rest ih =>
      cases rest with
      | nil =>
          have alone : commaSeparated ([k].map reference) = reference k := String.append_empty
          rw [alone, toList_reference, List.mem_cons, not_or]
          exact ⟨mark, not_mem_repr digit k⟩
      | cons l rest =>
          rw [commaSeparated_references, List.mem_cons, List.mem_append, List.mem_append, not_or,
            not_or, not_or]
          exact ⟨mark, not_mem_repr digit k, comma, ih⟩

theorem toList_lines (ls : List String) :
    (lines ls).toList = (ls.map String.toList).flatMap (· ++ ['\n']) := by
  induction ls with
  | nil => rfl
  | cons l ls ih =>
      rw [lines] at ih ⊢
      rw [List.map_cons, String.join_cons, String.toList_append, ih, String.toList_append]
      rfl

end Text

open Text

/-! ## Heads and nodes -/

/-- The head of a metadata name whose nodes have the given numbers. -/
def NamedMetadata.head (md : NamedMetadata) (numbers : List Nat) : String :=
  "!" ++ md.name ++ " = !\x7b" ++ commaSeparated (numbers.map reference) ++ "\x7d"

/-- A node under its number. -/
def nodeLine (k : Nat) (text : String) : String := "!" ++ k.repr ++ " = " ++ text

/-- Whatever the name holds, the references are read behind the last opening brace. -/
theorem referencesOf_head (md : NamedMetadata) (numbers : List Nat) :
    referencesOf (md.head numbers) = numbers := by
  let inside := commaSeparated (numbers.map reference)
  have line : backwards (md.head numbers) =
      '\x7d' :: (backwards inside ++ '\x7b' :: backwards ("!" ++ md.name ++ " = !")) := by
    have opening : " = !\x7b" = " = !" ++ "\x7b" := by decide
    rw [NamedMetadata.head, opening]
    simp [inside, backwards]
  have all : ∀ c ∈ backwards inside, decide (c ≠ '\x7b') = true := by
    intro c hc
    rw [decide_eq_true_eq]
    rintro rfl
    exact not_mem_commaSeparated rfl (by decide) (by decide) numbers
      (List.mem_reverse.mp hc)
  rw [referencesOf, line, List.drop_one, List.tail_cons, List.takeWhile_append_of_pos all,
    List.takeWhile_cons_of_neg (by simp), List.append_nil, backwards, List.reverse_reverse]
  exact references_commaSeparated numbers

namespace Module

/-- The texts of all nodes, in order. -/
def operandsOf (metadata : List NamedMetadata) : List String := metadata.flatMap (·.operands)

/-- The number of all nodes together. -/
def nodeCount : List NamedMetadata → Nat
  | [] => 0
  | md :: rest => md.operands.length + nodeCount rest

theorem length_operandsOf (metadata : List NamedMetadata) :
    (operandsOf metadata).length = nodeCount metadata := by
  induction metadata with
  | nil => rfl
  | cons md rest ih =>
      rw [operandsOf, List.flatMap_cons, List.length_append, nodeCount, ← ih]
      rfl

theorem metadataHeads_cons (first : Nat) (md : NamedMetadata) (rest : List NamedMetadata) :
    metadataHeads first (md :: rest) =
      md.head (List.range' first md.operands.length) ::
        metadataHeads (first + md.operands.length) rest := by
  rw [metadataHeads, NamedMetadata.head, List.range'_eq_map_range, List.map_map]
  rfl

/-- A head starts from the number of the nodes before it. -/
theorem getElem?_metadataHeads {metadata : List NamedMetadata} {j : Nat} {md : NamedMetadata}
    (h : metadata[j]? = some md) (first : Nat) :
    (metadataHeads first metadata)[j]? =
      some (md.head (List.range' (first + nodeCount (metadata.take j)) md.operands.length)) := by
  induction metadata generalizing j first with
  | nil => cases h
  | cons next rest ih =>
      rw [metadataHeads_cons]
      cases j with
      | zero =>
          cases h
          rfl
      | succ j =>
          rw [List.getElem?_cons_succ] at h ⊢
          rw [ih h, List.take_succ_cons, nodeCount, Nat.add_assoc]

theorem length_metadataHeads (first : Nat) (metadata : List NamedMetadata) :
    (metadataHeads first metadata).length = metadata.length := by
  induction metadata generalizing first with
  | nil => rfl
  | cons md rest ih => rw [metadataHeads_cons, List.length_cons, ih, List.length_cons]

/-- The heads refer to every node from the first on, once and in order. -/
theorem flatMap_referencesOf_heads (first : Nat) (metadata : List NamedMetadata) :
    (metadataHeads first metadata).flatMap referencesOf =
      List.range' first (nodeCount metadata) := by
  induction metadata generalizing first with
  | nil => rfl
  | cons md rest ih =>
      rw [metadataHeads_cons, List.flatMap_cons, referencesOf_head, ih, List.range'_append_1,
        nodeCount]

/-- The nodes of a name stand behind those of all names before it. -/
theorem getElem?_operandsOf {metadata : List NamedMetadata} {j : Nat} {md : NamedMetadata}
    (h : metadata[j]? = some md) {i : Nat} {text : String} (hi : md.operands[i]? = some text) :
    (operandsOf metadata)[nodeCount (metadata.take j) + i]? = some text := by
  induction metadata generalizing j with
  | nil => cases h
  | cons next rest ih =>
      rw [operandsOf, List.flatMap_cons]
      cases j with
      | zero =>
          cases h
          have inside := (List.getElem?_eq_some_iff.mp hi).1
          rw [List.take_zero, nodeCount, Nat.zero_add, List.getElem?_append_left inside, hi]
      | succ j =>
          rw [List.getElem?_cons_succ] at h
          have behind : nodeCount ((next :: rest).take (j + 1)) + i =
              next.operands.length + (nodeCount (rest.take j) + i) := by
            rw [List.take_succ_cons, nodeCount, Nat.add_assoc]
          rw [behind, List.getElem?_append_right (Nat.le_add_right _ _), Nat.add_sub_cancel_left]
          exact ih h

theorem getElem?_metadataNodes (metadata : List NamedMetadata) (k : Nat) :
    (metadataNodes metadata)[k]? = (operandsOf metadata)[k]?.map (nodeLine k) := by
  rw [metadataNodes, List.getElem?_map, List.getElem?_zipIdx, Option.map_map, Nat.zero_add]
  rfl

/-! ## The two loops agree -/

/-- Heads and nodes that belong together: every node has one number, every number is
referred to once, and what a head refers to is the text that its name lists. -/
structure NumberedThrough (metadata : List NamedMetadata) (heads nodes : List String) : Prop where
  heads_length : heads.length = metadata.length
  references : heads.flatMap referencesOf = List.range (nodeCount metadata)
  nodes_length : nodes.length = nodeCount metadata
  numbered : ∀ k < nodeCount metadata, ∃ text, nodes[k]? = some (nodeLine k text)
  /-- A head is made of its name and of as many references as there are operands. -/
  named : ∀ (j : Nat) (md : NamedMetadata), metadata[j]? = some md → ∃ head,
    heads[j]? = some head ∧ head = md.head (referencesOf head) ∧
      (referencesOf head).length = md.operands.length
  agree : ∀ (j : Nat) (md : NamedMetadata) (head : String), metadata[j]? = some md →
    heads[j]? = some head → ∀ (i : Nat) (text : String), md.operands[i]? = some text →
      ∃ k, (referencesOf head)[i]? = some k ∧ nodes[k]? = some (nodeLine k text)

theorem numberedThrough (metadata : List NamedMetadata) :
    NumberedThrough metadata (metadataHeads 0 metadata) (metadataNodes metadata) where
  heads_length := length_metadataHeads 0 metadata
  references := by
    rw [flatMap_referencesOf_heads, List.range_eq_range']
  nodes_length := by
    rw [metadataNodes, List.length_map, List.length_zipIdx]
    exact length_operandsOf metadata
  numbered := by
    intro k hk
    rw [← length_operandsOf] at hk
    refine ⟨(operandsOf metadata)[k], ?_⟩
    rw [getElem?_metadataNodes, List.getElem?_eq_getElem hk]
    rfl
  named := by
    intro j md hj
    refine ⟨_, getElem?_metadataHeads hj 0, ?_, ?_⟩
    · rw [referencesOf_head]
    · rw [referencesOf_head, List.length_range']
  agree := by
    intro j md head hj hh i text hi
    have inside := (List.getElem?_eq_some_iff.mp hi).1
    rw [getElem?_metadataHeads hj, Nat.zero_add] at hh
    cases hh
    refine ⟨nodeCount (metadata.take j) + i, ?_, ?_⟩
    · rw [referencesOf_head, List.getElem?_range' inside, Nat.one_mul]
    · rw [getElem?_metadataNodes, getElem?_operandsOf hj hi]
      rfl

/-! ## The lines of the text -/

/-- The lines that are written: heads and nodes, each behind an empty line. -/
def metadataLines (metadata : List NamedMetadata) : List String :=
  if metadata.isEmpty then []
  else "" :: metadataHeads 0 metadata ++ "" :: metadataNodes metadata

theorem metadataText_eq (m : Module) : m.metadataText = Text.lines (metadataLines m.metadata) := by
  unfold metadataText metadataLines
  split
  next => rfl
  next => simp [Text.lines, String.append_assoc]

/-- None of the names and texts holds a line break. -/
def OneLineMetadata (metadata : List NamedMetadata) : Prop :=
  ∀ md ∈ metadata, OneLine md.name ∧ ∀ text ∈ md.operands, OneLine text

instance (metadata : List NamedMetadata) : Decidable (OneLineMetadata metadata) :=
  inferInstanceAs (Decidable (∀ md ∈ metadata, OneLine md.name ∧ ∀ text ∈ md.operands, _))

theorem oneLine_heads {metadata : List NamedMetadata} (h : OneLineMetadata metadata)
    (first : Nat) : ∀ l ∈ metadataHeads first metadata, OneLine l := by
  induction metadata generalizing first with
  | nil => exact List.forall_mem_nil _
  | cons md rest ih =>
      obtain ⟨⟨name, -⟩, others⟩ := List.forall_mem_cons.mp h
      have inside : OneLine (commaSeparated
          ((List.range' first md.operands.length).map reference)) :=
        not_mem_commaSeparated rfl (by decide) (by decide) _
      have head : OneLine (md.head (List.range' first md.operands.length)) := by
        simp only [NamedMetadata.head, oneLine_append]
        exact ⟨⟨⟨⟨by decide, name⟩, by decide⟩, inside⟩, by decide⟩
      rw [metadataHeads_cons, List.forall_mem_cons]
      exact ⟨head, ih others _⟩

theorem oneLine_nodes {metadata : List NamedMetadata} (h : OneLineMetadata metadata) :
    ∀ l ∈ metadataNodes metadata, OneLine l := by
  intro l hl
  obtain ⟨⟨text, k⟩, place, rfl⟩ := List.mem_map.mp hl
  obtain ⟨md, hmd, ht⟩ := List.mem_flatMap.mp (List.mem_of_getElem?
    (List.mem_zipIdx_iff_getElem?.mp place))
  simp only [oneLine_append]
  exact ⟨⟨⟨by decide, oneLine_repr k⟩, by decide⟩, (h md hmd).2 text ht⟩

theorem linesOf_metadataText {m : Module} (h : OneLineMetadata m.metadata) :
    linesOf m.metadataText.toList = (metadataLines m.metadata).map String.toList := by
  have all : ∀ l ∈ metadataLines m.metadata, OneLine l := by
    have empty : OneLine "" := by decide
    unfold metadataLines
    split
    next => exact List.forall_mem_nil _
    next =>
        rw [List.forall_mem_append, List.forall_mem_cons, List.forall_mem_cons]
        exact ⟨⟨empty, oneLine_heads h 0⟩, empty, oneLine_nodes h⟩
  have text : m.metadataText.toList =
      ((metadataLines m.metadata).map String.toList).flatMap (· ++ ['\n']) := by
    rw [metadataText_eq, toList_lines]
  rw [text, linesOf_flatMap]
  rwa [List.forall_mem_map]

/-- Heads and nodes are written line by line behind what is there, and they belong
together; where no name and no text holds a line break, they are the lines of the text. -/
theorem metadata_numbered_through (m : Module) :
    NumberedThrough m.metadata (metadataHeads 0 m.metadata) (metadataNodes m.metadata) ∧
    (∀ out, m.writeMetadata out = out ++ Text.lines (metadataLines m.metadata)) ∧
    (OneLineMetadata m.metadata →
      linesOf m.metadataText.toList = (metadataLines m.metadata).map String.toList) := by
  refine ⟨numberedThrough m.metadata, ?_, linesOf_metadataText⟩
  intro out
  rw [writeMetadata_eq, metadataText_eq]

/-- Two names are the same, one of them has no nodes, and one looks like a head itself. -/
def lookalikeHeads : Module where
  metadata := [⟨"a = !\x7b!7\x7d", ["!\x7b\x7d", "!1"]⟩, ⟨"b", []⟩, ⟨"b", ["!0 = !\x7b\x7d"]⟩]

theorem metadata_numbered_through_lookalikes :
    OneLineMetadata lookalikeHeads.metadata ∧
    (metadataHeads 0 lookalikeHeads.metadata).flatMap referencesOf = [0, 1, 2] ∧
    linesOf lookalikeHeads.metadataText.toList =
      ["", "!a = !\x7b!7\x7d = !\x7b!0, !1\x7d", "!b = !\x7b\x7d", "!b = !\x7b!2\x7d",
       "", "!0 = !\x7b\x7d", "!1 = !1", "!2 = !0 = !\x7b\x7d"].map String.toList := by
  have oneLine : OneLineMetadata lookalikeHeads.metadata := by decide +kernel
  obtain ⟨numbered, -, lines⟩ := metadata_numbered_through lookalikeHeads
  refine ⟨oneLine, numbered.references, ?_⟩
  rw [lines oneLine]
  decide +kernel

end Module

end ShaderReport
