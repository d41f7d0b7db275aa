/-
# Bytes of a container that nothing depends on

The digest and the minor version are stored and not looked at, and what stands behind
the declared size is not part of the container.  `Restates a b` says that `b` differs
from `a` in such bytes only.

Every read that counts is the read of a window, so the argument is about windows
(`Restates.window_eq`): one that lies below the declared size and does not touch the
unread bytes is the same in both.  From byte 24 on nothing is unread, so what is left
is to place each window there.  The size, the count and the offset table lie in front
of the parts by their place.  The headers and payloads of the parts could stand
anywhere, an offset being any 32-bit word; that they stand behind the table is a demand
of the format, and here it is needed.
-/
import ShaderReport.Proofs.Container.Contents

namespace ShaderReport

theorem Bytes.window_congr {a b : Bytes} {offset width : Nat}
    (h : ∀ i, offset ≤ i → i < offset + width → b[i]? = a[i]?) :
    b.window offset width = a.window offset width := by
  refine List.ext_getElem? ?_
  intro i
  rw [window, window, List.getElem?_take, List.getElem?_take]
  by_cases inside : i < width
  · rw [if_pos inside, if_pos inside, List.getElem?_drop, List.getElem?_drop]
    exact h (offset + i) (by omega) (by omega)
  · rw [if_neg inside, if_neg inside]

namespace Container

/-- The places of the digest and of the minor version. -/
def Unread (i : Nat) : Prop := (4 ≤ i ∧ i < 20) ∨ (22 ≤ i ∧ i < 24)

/-- `b` holds the container that `a` holds, with unread bytes of its own. -/
structure Restates (a b : Bytes) : Prop where
  length : declaredSize a ≤ b.length
  agree : ∀ i < declaredSize a, ¬ Unread i → b[i]? = a[i]?

section Restates

variable {a b : Bytes} (s : Restates a b)
include s

theorem Restates.window_eq {offset width : Nat} (inside : offset + width ≤ declaredSize a)
    (read : ∀ i, offset ≤ i → i < offset + width → ¬ Unread i) :
    b.window offset width = a.window offset width := by
  refine Bytes.window_congr ?_
  intro i lower upper
  exact s.agree i (by omega) (read i lower upper)

theorem Restates.window_eq_of_le {offset width : Nat} (inside : offset + width ≤ declaredSize a)
    (behind : 24 ≤ offset) : b.window offset width = a.window offset width := by
  refine s.window_eq inside ?_
  intro i lower _
  simp only [Unread]
  omega

theorem Restates.u32At_eq {offset : Nat} (inside : offset + 4 ≤ declaredSize a)
    (behind : 24 ≤ offset) : b.u32At offset = a.u32At offset :=
  Bytes.reads_u32.congr (s.window_eq_of_le inside behind)

/-! ## The header -/

variable (h : HeaderFits a)
include h

theorem Restates.magic_eq : b.take 4 = a.take 4 := by
  have same : b.window 0 4 = a.window 0 4 := by
    refine s.window_eq ?_ ?_
    · have := h.size_ge
      omega
    · intro i _ upper
      simp only [Unread]
      omega
  exact same

theorem Restates.version_eq : b.u16At 20 = a.u16At 20 := by
  have same : b.window 20 2 = a.window 20 2 := by
    refine s.window_eq ?_ ?_
    · have := h.size_ge
      omega
    · intro i lower upper
      simp only [Unread]
      omega
  exact congrArg (fun w => UInt16.ofNat (Bytes.toNatLE w)) same

theorem Restates.size_eq : b.u32At 24 = a.u32At 24 :=
  s.u32At_eq (Nat.le_trans (by decide) h.size_ge) (Nat.le_refl 24)

theorem Restates.partCount_eq : b.u32At 28 = a.u32At 28 :=
  s.u32At_eq (Nat.le_trans (by decide) h.size_ge) (by decide)

theorem Restates.declaredSize_eq : declaredSize b = declaredSize a :=
  congrArg UInt32.toNat (s.size_eq h)

theorem Restates.declaredCount_eq : declaredCount b = declaredCount a :=
  congrArg UInt32.toNat (s.partCount_eq h)

theorem Restates.headerFits : HeaderFits b where
  length := Nat.le_trans h.size_ge s.length
  magic := (s.magic_eq h).trans h.magic
  version := (s.version_eq h).trans h.version
  size_ge := by
    rw [s.declaredSize_eq h]
    exact h.size_ge
  size_le := by
    rw [s.declaredSize_eq h]
    exact s.length
  count_le := by
    rw [s.declaredCount_eq h]
    exact h.count_le
  count_fits := by
    rw [s.declaredCount_eq h, s.declaredSize_eq h]
    exact h.count_fits

theorem Restates.offsetAt_eq {i : Nat} (hi : i < declaredCount a) : offsetAt b i = offsetAt a i := by
  have := h.tableEnd_le
  exact s.u32At_eq (by omega) (by omega)

theorem Restates.offsets_eq : offsets b = offsets a := by
  rw [offsets, offsets, s.declaredCount_eq h]
  refine List.map_congr_left ?_
  intro i hi
  exact s.offsetAt_eq h (List.mem_range.mp hi)

theorem Restates.view_window_eq {offset width : Nat} (inside : offset + width ≤ declaredSize a)
    (behind : 24 ≤ offset) : (viewOf b).window offset width = (viewOf a).window offset width := by
  rw [viewOf, viewOf, s.declaredSize_eq h, Bytes.window_take inside, Bytes.window_take inside,
    s.window_eq_of_le inside behind]

end Restates

/-! ## The parts -/

section Parts

variable {a b : Bytes} (s : Restates a b) (h : WellFormed a)
include s h

theorem Restates.wellFormed : WellFormed b where
  toHeaderFits := s.headerFits h.toHeaderFits
  parts := by
    rw [s.declaredCount_eq h.toHeaderFits, s.declaredSize_eq h.toHeaderFits]
    intro i hi
    obtain ⟨behind, header, payload⟩ := h.parts i hi
    rw [s.offsetAt_eq h.toHeaderFits hi, s.u32At_eq (by omega) (by omega)]
    exact ⟨behind, header, payload⟩

/-- A part stands in both at the same place, with the same name, length and payload. -/
theorem Restates.standingAt_eq {o : UInt32} (ho : o ∈ offsets a) :
    Part.standingAt (viewOf b) o = Part.standingAt (viewOf a) o ∧
      (ofBytes b).payload (Part.standingAt (viewOf a) o) =
        (ofBytes a).payload (Part.standingAt (viewOf a) o) := by
  obtain ⟨i, hi, rfl⟩ := List.mem_map.mp ho
  -- `behind` keeps all three windows past byte 24, the other two keep them inside
  obtain ⟨behind, header, payload⟩ := h.parts i (List.mem_range.mp hi)
  have size : (viewOf a).u32At ((offsetAt a i).toNat + 4) = a.u32At ((offsetAt a i).toNat + 4) :=
    Bytes.reads_u32.take (by omega)
  constructor
  · rw [Part.standingAt, Part.standingAt, s.view_window_eq h.toHeaderFits header (by omega),
      Bytes.reads_u32.congr (s.view_window_eq h.toHeaderFits (by omega) (by omega))]
  · refine s.view_window_eq h.toHeaderFits ?_ ?_
    · rw [Part.standingAt, size]
      exact payload
    · rw [partHeaderLength]
      simp only [Part.standingAt]
      omega

theorem Restates.parts_eq : (ofBytes b).parts = (ofBytes a).parts := by
  rw [ofBytes, ofBytes, s.offsets_eq h.toHeaderFits]
  refine List.map_congr_left ?_
  intro o ho
  exact (s.standingAt_eq h ho).1

theorem Restates.payload_eq {p : Part} (hp : p ∈ (ofBytes a).parts) :
    (ofBytes b).payload p = (ofBytes a).payload p := by
  obtain ⟨o, ho, rfl⟩ := List.mem_map.mp hp
  exact (s.standingAt_eq h ho).2

theorem Restates.partsOf_eq : partsOf b = partsOf a := by
  rw [partsOf, partsOf, pairs, pairs, s.parts_eq h]
  refine List.map_congr_left ?_
  intro p hp
  rw [s.payload_eq h hp]

end Parts

end Container

end ShaderReport
