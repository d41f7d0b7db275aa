/-
# Reading on from a place

A cursor's reader answers as the reader at a fixed offset does and moves on by as much as
it reads, failures included (`u8_eq`, `u32_eq`).  So a record that is read field by field
with a cursor is a record whose fields are read at the sums of the widths before them.
Where the bytes are known to be there, no field fails (`word_inside`).
-/
import ShaderReport.Bytes.Cursor
import ShaderReport.Proofs.Bytes.Windows

namespace ShaderReport.Cursor

theorem map_read {α : Type} (view : Bytes → α) (b : Bytes) (n width : Nat) :
    ((read ⟨b, n⟩ width).map fun (found, c) => (view found, c)) =
      ((b.slice n width).map view).map fun x => (x, ⟨b, n + width⟩) := by
  rw [read]
  cases b.slice n width with
  | error cause => rfl
  | ok found => rfl

theorem u8_eq (b : Bytes) (n : Nat) :
    u8 ⟨b, n⟩ = (b.readU8 n).map fun x => (x, ⟨b, n + 1⟩) := map_read (Bytes.u8At · 0) b n 1

theorem u32_eq (b : Bytes) (n : Nat) :
    u32 ⟨b, n⟩ = (b.readU32 n).map fun x => (x, ⟨b, n + 4⟩) := map_read (Bytes.u32At · 0) b n 4

/-! ## Inside the string -/

section Inside

variable {b : Bytes} {n : Nat}

theorem read_inside {width : Nat} (h : n + width ≤ b.length) (small : n + width < addressLimit) :
    read ⟨b, n⟩ width = .ok (b.window n width, ⟨b, n + width⟩) := by
  rw [read, Bytes.slice_eq_ok h small]
  rfl

theorem word_inside {α : Type} {width : Nat} {total : Bytes → Nat → α}
    {checked : Bytes → Nat → Except ReadError α} (reads : Bytes.Reads width total checked)
    (h : n + width ≤ b.length) (small : n + width < addressLimit) :
    ((read ⟨b, n⟩ width).map fun (found, c) => (total found 0, c)) =
      .ok (total b n, ⟨b, n + width⟩) := by
  rw [read_inside h small, reads.own b n]
  rfl

end Inside

end ShaderReport.Cursor
