/-
# Windows — which bytes a reader looks at

Every reader looks at a window: so many bytes from an offset on.  A window does
not change when the string around it is cut or extended outside of it
(`window_take`, `window_append_left`, `window_append_right`).

Readers of words come in pairs.  The total one finds something everywhere; the
checked one looks at the same bytes and fails where one of them is missing.  What
is said of such a pair (`Reads`) does not depend on how many bytes a word has: it
reads the same in a part of the string, and inside of the string both readers
find the same (`Reads.eq_ok`).
-/
import ShaderReport.Bytes.LittleEndian

namespace ShaderReport.Bytes

/-- The bytes in a range; fewer of them if the string ends before the range does. -/
def window (b : Bytes) (offset width : Nat) : Bytes := (b.drop offset).take width

theorem length_window {b : Bytes} {offset width : Nat} (h : offset + width ≤ b.length) :
    (b.window offset width).length = width := by
  rw [window, List.length_take, List.length_drop]
  omega

/-! ## Windows of a part of a string -/

theorem window_take {b : Bytes} {offset width n : Nat} (h : offset + width ≤ n) :
    window (b.take n) offset width = b.window offset width := by
  rw [window, window, List.drop_take, List.take_take, Nat.min_eq_left (by omega)]

theorem window_drop (b : Bytes) (n offset width : Nat) :
    window (b.drop n) offset width = b.window (n + offset) width := by
  rw [window, window, List.drop_drop]

theorem window_window (b : Bytes) (offset : Nat) {width o w : Nat} (h : o + w ≤ width) :
    window (b.window offset width) o w = b.window (offset + o) w := by
  have cut : window (b.window offset width) o w = window (b.drop offset) o w := window_take h
  rw [cut, window_drop]

theorem window_append_left {a : Bytes} (b : Bytes) {offset width : Nat}
    (h : offset + width ≤ a.length) : window (a ++ b) offset width = a.window offset width := by
  rw [window, window, List.drop_append_of_le_length (by omega),
    List.take_append_of_le_length (by rw [List.length_drop]; omega)]

theorem window_append_right (a b : Bytes) (offset width : Nat) :
    window (a ++ b) (a.length + offset) width = b.window offset width := by
  rw [window, window, List.drop_append, List.drop_eq_nil_of_le (Nat.le_add_right ..),
    List.nil_append, Nat.add_sub_cancel_left]

/-- The window that is exactly the middle one of three strings. -/
theorem window_middle (a b c : Bytes) : window (a ++ (b ++ c)) a.length b.length = b := by
  have h := window_append_right a (b ++ c) 0 b.length
  rw [Nat.add_zero] at h
  rw [h, window_append_left c (by omega)]
  simp [window]

/-! ## Words inside a string -/

/-- The word stored in the middle of a string. -/
theorem u32At_middle (a c : Bytes) {n : Nat} (h : n < 4294967296) :
    (u32At (a ++ (ofNatLE 4 n ++ c)) a.length).toNat = n := by
  have width : (ofNatLE 4 n).length = 4 := length_ofNatLE 4 n
  have found : window (a ++ (ofNatLE 4 n ++ c)) a.length 4 = ofNatLE 4 n := by
    have middle := window_middle a (ofNatLE 4 n) c
    rwa [width] at middle
  have fits : n % capacity 4 = n := Nat.mod_eq_of_lt h
  have word : u32At (a ++ (ofNatLE 4 n ++ c)) a.length = .ofNat (toNatLE (ofNatLE 4 n)) :=
    congrArg (fun w => UInt32.ofNat (toNatLE w)) found
  rw [word, toNatLE_ofNatLE, fits]
  exact Nat.mod_eq_of_lt h

theorem length_flatMap_ofNatLE (ns : List Nat) :
    (ns.flatMap (ofNatLE 4)).length = 4 * ns.length := by
  induction ns with
  | nil => rfl
  | cons n rest ih =>
      simp only [List.flatMap_cons, List.length_append, length_ofNatLE, List.length_cons, ih]
      omega

/-- The words of a table are found where they were written. -/
theorem u32At_table (front rest : Bytes) (ns : List Nat) (small : ∀ n ∈ ns, n < 4294967296) :
    (List.range ns.length).map
        (fun i => (u32At (front ++ (ns.flatMap (ofNatLE 4) ++ rest))
          (front.length + 4 * i)).toNat) = ns := by
  induction ns generalizing front with
  | nil => rfl
  | cons n ns ih =>
      obtain ⟨hn, hns⟩ := List.forall_mem_cons.mp small
      have shift : front ++ ((n :: ns).flatMap (ofNatLE 4) ++ rest) =
          (front ++ ofNatLE 4 n) ++ (ns.flatMap (ofNatLE 4) ++ rest) := by
        simp
      have tail := ih (front ++ ofNatLE 4 n) hns
      rw [← shift, List.length_append, length_ofNatLE] at tail
      have head := u32At_middle front (ns.flatMap (ofNatLE 4) ++ rest) hn
      rw [List.length_cons, List.range_succ_eq_map, List.map_cons, List.map_map]
      refine List.cons_eq_cons.mpr ⟨?_, ?_⟩
      · rw [Nat.mul_zero, Nat.add_zero, shift, List.append_assoc]
        exact head
      · refine Eq.trans (List.map_congr_left ?_) tail
        intro i _
        simp only [Function.comp_apply]
        congr 2
        omega

/-- A string of whole words, word by word. -/
theorem words32_eq {b : Bytes} {n : Nat} (h : b.length = 4 * n) :
    b.words32 = (List.range n).map fun i => b.u32At (4 * i) := by
  induction n generalizing b with
  | zero =>
      rw [List.eq_nil_of_length_eq_zero h]
      rfl
  | succ n ih =>
      match b, h with
      | b0 :: b1 :: b2 :: b3 :: rest, h =>
          have hrest : rest.length = 4 * n := by
            simp only [List.length_cons] at h
            omega
          rw [words32, ih hrest, List.range_succ_eq_map, List.map_cons, List.map_map]
          rfl

/-! ## Checked readers inside a string -/

theorem slice_eq_ok {b : Bytes} {offset width : Nat} (h : offset + width ≤ b.length)
    (small : offset + width < addressLimit) :
    b.slice offset width = .ok (b.window offset width) := by
  rw [slice_eq, if_neg (by omega), if_pos h, window]

theorem slice_eq_error {b : Bytes} {offset width : Nat} (h : b.length < offset + width) :
    ∃ cause, b.slice offset width = .error cause := by
  rw [slice_eq]
  by_cases large : addressLimit ≤ offset + width
  · exact ⟨_, if_pos large⟩
  · rw [if_neg large, if_neg (by omega)]
    exact ⟨_, rfl⟩

theorem length_of_slice_eq_ok {b found : Bytes} {offset width : Nat}
    (h : b.slice offset width = .ok found) : found.length = width := by
  by_cases inside : offset + width ≤ b.length
  · rw [slice_eq, if_pos inside] at h
    split at h
    · cases h
    · cases h
      exact length_window inside
  · obtain ⟨cause, hc⟩ := slice_eq_error (Nat.not_le.mp inside)
    rw [hc] at h
    cases h

/-! ## Readers of words -/

/-- A total and a checked reader of words of so many bytes. -/
structure Reads {α : Type} (width : Nat) (total : Bytes → Nat → α)
    (checked : Bytes → Nat → Except ReadError α) : Prop where
  /-- What is found depends on the word's own bytes alone. -/
  own : ∀ b offset, total b offset = total (b.window offset width) 0
  checked_eq : ∀ b offset, checked b offset = (b.slice offset width).map (total · 0)

theorem reads_u8 : Reads 1 u8At readU8 where
  own b offset := by
    simp only [u8At, window, List.getD_eq_getElem?_getD, List.getElem?_take, List.getElem?_drop,
      Nat.add_zero, Nat.zero_lt_one, if_true]
  checked_eq _ _ := rfl

theorem reads_u16 : Reads 2 u16At readU16 where
  own b offset := by
    simp only [u16At, window, List.drop_zero, List.take_take, Nat.min_self]
  checked_eq _ _ := rfl

theorem reads_u32 : Reads 4 u32At readU32 where
  own b offset := by
    simp only [u32At, window, List.drop_zero, List.take_take, Nat.min_self]
  checked_eq _ _ := rfl

namespace Reads

variable {α : Type} {width : Nat} {total : Bytes → Nat → α}
  {checked : Bytes → Nat → Except ReadError α} (reads : Reads width total checked)
include reads

theorem congr {b b' : Bytes} {offset offset' : Nat}
    (h : b.window offset width = b'.window offset' width) : total b offset = total b' offset' := by
  rw [reads.own b, reads.own b', h]

theorem drop (b : Bytes) (n offset : Nat) : total (b.drop n) offset = total b (n + offset) :=
  reads.congr (window_drop b n offset width)

theorem take {b : Bytes} {offset n : Nat} (h : offset + width ≤ n) :
    total (b.take n) offset = total b offset :=
  reads.congr (window_take h)

theorem inWindow (b : Bytes) (offset : Nat) {n o : Nat} (h : o + width ≤ n) :
    total (b.window offset n) o = total b (offset + o) :=
  reads.congr (window_window b offset h)

theorem eq_ok {b : Bytes} {offset : Nat} (h : offset + width ≤ b.length)
    (small : offset + width < addressLimit) : checked b offset = .ok (total b offset) := by
  rw [reads.checked_eq, slice_eq_ok h small, Except.map, ← reads.own]

theorem eq_error {b : Bytes} {offset : Nat} (h : b.length < offset + width) :
    ∃ cause, checked b offset = .error cause := by
  obtain ⟨cause, failed⟩ := slice_eq_error h
  rw [reads.checked_eq, failed]
  exact ⟨cause, rfl⟩

end Reads

end ShaderReport.Bytes
