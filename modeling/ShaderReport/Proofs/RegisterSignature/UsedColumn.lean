/-
# The last column of a register table

A row ends in seven characters that say what is used of its element.  With a register
these are the letters of the components; without one they are a plain yes or no.  Both
are read off one byte, which for outputs is the complement of the byte that is stored.

The letters look at four bits of the byte and the answer looks at all eight.  So the two
rows that one element can have say the same exactly if the four upper bits do not decide:
either a lower bit is set, or no bit is (`used_columns_agree_iff`).  For outputs the
complement turns this around.  An element of which no component is ever written is
answered with no only if the upper bits of the stored byte are set as well.
-/
import Mathlib.Data.Nat.Bitwise
import ShaderReport.Report.Signatures

namespace ShaderReport

/-! ## The end of a row -/

/-- The last seven characters of a row. -/
def usedColumn (row : String) : String := String.ofList (row.toList.drop (row.length - 7))

theorem usedColumn_append (front : String) {last : String} (h : last.length = 7) :
    usedColumn (front ++ last) = last := by
  have behind : (front ++ last).length - 7 = front.toList.length := by
    rw [String.length_append, h, Nat.add_sub_cancel, String.length_toList]
  rw [usedColumn, behind, String.toList_append, List.drop_left, String.ofList_toList]

/-- One of the letters of the components stands in the column. -/
def ShowsComponent (column : String) : Prop := ∃ letter ∈ "xyzw".toList, letter ∈ column.toList

namespace RegisterElement

theorem toList_maskText (mask : UInt8) : (maskText mask).toList =
    "xyzw".toList.zipIdx.map fun (letter, bit) =>
      if mask.toNat.testBit bit then letter else ' ' :=
  String.toList_ofList

theorem usedColumn_of_register {e : RegisterElement} (h : e.hasRegister = true)
    (hasStreams : Bool) (direction : Direction) :
    usedColumn (e.row hasStreams direction) = "   " ++ maskText (e.used direction) := by
  have wide : ("   " ++ maskText (e.used direction)).length = 7 := by
    rw [String.length_append, ← @String.length_toList (maskText _), toList_maskText,
      List.length_map]
    rfl
  unfold row
  simp only [h, if_true]
  exact usedColumn_append _ wide

theorem usedColumn_of_no_register {e : RegisterElement} (h : e.hasRegister = false)
    (hasStreams : Bool) (direction : Direction) :
    usedColumn (e.row hasStreams direction) =
      if e.used direction = 0 then "     NO" else "    YES" := by
  have wide : (if e.used direction = 0 then "     NO" else "    YES").length = 7 := by
    split <;> rfl
  unfold row
  simp only [h, Bool.false_eq_true, if_false]
  exact usedColumn_append _ wide

/-! ## What the letters say, and what the answer says -/

/-- One of the lowest bits is set exactly if the number is no multiple. -/
theorem exists_testBit_iff (n width : Nat) :
    (∃ bit < width, n.testBit bit = true) ↔ n % 2 ^ width ≠ 0 := by
  constructor
  · rintro ⟨bit, below, set⟩ zero
    have clear := Nat.testBit_mod_two_pow n width bit
    rw [zero, Nat.zero_testBit, decide_eq_true below, set] at clear
    cases clear
  · intro h
    obtain ⟨bit, set⟩ := Nat.exists_testBit_of_ne_zero h
    rw [Nat.testBit_mod_two_pow, Bool.and_eq_true, decide_eq_true_eq] at set
    exact ⟨bit, set⟩

/-- A letter is shown exactly if one of the four lowest bits is set. -/
theorem showsComponent_maskText_iff (mask : UInt8) :
    ShowsComponent ("   " ++ maskText mask) ↔ mask.toNat % 16 ≠ 0 := by
  rw [show 16 = 2 ^ 4 from rfl, ← exists_testBit_iff, ShowsComponent, String.toList_append,
    toList_maskText]
  constructor
  · rintro ⟨letter, isLetter, shown⟩
    have noBlank : ∀ letter ∈ "xyzw".toList, letter ∉ "   ".toList ∧ letter ≠ ' ' := by simp
    have bits : ∀ entry ∈ "xyzw".toList.zipIdx, entry.2 < 4 := by decide
    rcases List.mem_append.mp shown with blank | shown
    · exact absurd blank (noBlank letter isLetter).1
    · obtain ⟨⟨own, bit⟩, place, rfl⟩ := List.mem_map.mp shown
      refine ⟨bit, bits _ place, ?_⟩
      by_contra clear
      exact (noBlank _ isLetter).2 (if_neg clear)
  · rintro ⟨bit, below, set⟩
    have inside : bit < "xyzw".toList.length := below
    refine ⟨"xyzw".toList[bit], List.getElem_mem inside, List.mem_append_right _ ?_⟩
    refine List.mem_map.mpr ⟨("xyzw".toList[bit], bit), ?_, if_pos set⟩
    exact List.mem_zipIdx_iff_getElem?.mpr (List.getElem?_eq_getElem inside)

/-- The four upper bits do not decide: of an input they are clear where the lower ones are,
and of an output they are set where the lower ones are. -/
def UpperBitsIdle (usage : UInt8) : Direction → Prop
  | .input => usage.toNat % 16 = 0 → usage = 0
  | .output => usage.toNat % 16 = 15 → usage = 255

instance (usage : UInt8) : (direction : Direction) → Decidable (UpperBitsIdle usage direction)
  | .input => inferInstanceAs (Decidable (usage.toNat % 16 = 0 → usage = 0))
  | .output => inferInstanceAs (Decidable (usage.toNat % 16 = 15 → usage = 255))

theorem upperBitsIdle_iff (e : RegisterElement) (direction : Direction) :
    UpperBitsIdle e.usage direction ↔
      ((e.used direction).toNat % 16 = 0 → e.used direction = 0) := by
  cases direction with
  | input => exact Iff.rfl
  | output =>
      have complement : (~~~e.usage).toNat = 255 - e.usage.toNat := UInt8.toNat_not _
      have bound : e.usage.toNat < 256 := e.usage.toNat_lt
      rw [UpperBitsIdle, used, ← UInt8.toNat_inj, ← UInt8.toNat_inj, complement,
        show (255 : UInt8).toNat = 255 from rfl, show (0 : UInt8).toNat = 0 from rfl]
      omega

end RegisterElement

open RegisterElement in
/-- The row of an element outside the register file, and the row the element would have with
a register: the first says yes where any bit is set, the second shows a letter where one of
the four lowest bits is, and they agree exactly if the upper bits do not decide. -/
theorem used_columns_agree_iff {s : RegisterSignature} {e : RegisterElement}
    (member : e ∈ s.elements) (outside : e.hasRegister = false) {register : UInt32}
    (inside : register ≠ noRegister) (title : String) (direction : Direction) :
    e.row s.hasStreams direction ∈ s.lines title direction ∧
    (usedColumn (e.row s.hasStreams direction) =
      if e.used direction = 0 then "     NO" else "    YES") ∧
    usedColumn ({ e with register }.row s.hasStreams direction) =
      "   " ++ maskText (e.used direction) ∧
    ((usedColumn (e.row s.hasStreams direction) = "    YES" ↔
        ShowsComponent (usedColumn ({ e with register }.row s.hasStreams direction))) ↔
      UpperBitsIdle e.usage direction) := by
  have answer := usedColumn_of_no_register outside s.hasStreams direction
  have twin : ({ e with register } : RegisterElement).hasRegister = true := by
    rw [hasRegister, decide_eq_true_eq]
    exact inside
  have letters : usedColumn ({ e with register }.row s.hasStreams direction) =
      "   " ++ maskText (e.used direction) := usedColumn_of_register twin s.hasStreams direction
  have yes : usedColumn (e.row s.hasStreams direction) = "    YES" ↔ e.used direction ≠ 0 := by
    rw [answer]
    by_cases none : e.used direction = 0
    · simp [none]
    · simp [none]
  refine ⟨?_, answer, letters, ?_⟩
  · have some : ¬ s.elements.isEmpty = true := by
      rw [List.isEmpty_iff]
      exact List.ne_nil_of_mem member
    rw [RegisterSignature.lines, if_neg some]
    refine List.mem_append_right _ (List.mem_append_left _ ?_)
    exact List.mem_map_of_mem member
  · rw [yes, letters, showsComponent_maskText_iff, upperBitsIdle_iff, not_iff_not]
    constructor
    · intro h
      exact h.mpr
    · intro h
      refine ⟨?_, h⟩
      intro none
      rw [none]
      rfl

/-- An output of which no component is ever written. -/
def unwrittenDepth (register : UInt32) : RegisterElement where
  stream := 0
  name := "SV_Depth"
  index := 0
  systemValueCode := 65
  formatCode := 3
  register := register
  mask := 1
  usage := 15
  minPrecision := 0

/-- A signature with this output, once in a register and once outside the register file. -/
def unwrittenSignature : RegisterSignature :=
  ⟨[unwrittenDepth 0, unwrittenDepth RegisterElement.noRegister]⟩

/-- The row with a register shows no component, and the row without one says yes. -/
theorem used_columns_agree_iff_unwritten :
    (RegisterSignature.parse (RegisterSignature.build unwrittenSignature.elements)).toOption =
      some unwrittenSignature ∧
    usedColumn ((unwrittenDepth RegisterElement.noRegister).row false .output) = "    YES" ∧
    usedColumn ((unwrittenDepth 0).row false .output) = "       " ∧
    ¬ (usedColumn ((unwrittenDepth RegisterElement.noRegister).row false .output) = "    YES" ↔
      ShowsComponent (usedColumn ((unwrittenDepth 0).row false .output))) := by
  have read : (RegisterSignature.parse
      (RegisterSignature.build unwrittenSignature.elements)).toOption =
        some unwrittenSignature := by decide +kernel
  have member : unwrittenDepth RegisterElement.noRegister ∈ unwrittenSignature.elements :=
    List.mem_cons_of_mem _ List.mem_cons_self
  have outside : (unwrittenDepth RegisterElement.noRegister).hasRegister = false := by decide
  have inside : (0 : UInt32) ≠ RegisterElement.noRegister := by decide
  obtain ⟨-, answer, letters, agree⟩ :=
    used_columns_agree_iff member outside inside "Output" .output
  refine ⟨read, answer.trans (by decide +kernel), letters.trans (by decide +kernel), ?_⟩
  intro same
  exact absurd (agree.mp same) (by decide)

end ShaderReport
