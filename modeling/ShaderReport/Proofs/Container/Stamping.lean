/-
# Stamping a container with a digest

The digest of a container is taken with zeros in the place where it is stored, so it is the same
whatever is stored there.  Storing a digest changes sixteen bytes that reading does not look at,
and the container that is read is the old one with the new digest (`parse_patch`).  From these
two the question whether the stored digest matches comes down to which bytes were stored.

A hasher gets the container in three pieces: four bytes, sixteen zeros, and what stands behind
the digest.  The pieces are cut out of the container with checked readers (`digestInPieces`),
and a container that was read is long enough for both cuts.
-/
import ShaderReport.Proofs.Container.Unread
import ShaderReport.Proofs.MD5.Pieces

namespace ShaderReport.Container

/-! ## Bytes that are overwritten -/

section Patch

variable {b new : Bytes} {offset : Nat} (room : offset + new.length ≤ b.length)
include room

theorem length_patch : (patch b offset new).length = b.length := by
  rw [patch, List.length_append, List.length_append, List.length_take, List.length_drop]
  omega

theorem take_patch_front : (patch b offset new).take offset = b.take offset := by
  have front : (b.take offset).length = offset := List.length_take_of_le (by omega)
  rw [patch, List.take_append_of_le_length (Nat.le_of_eq front.symm), List.take_take,
    Nat.min_self]

theorem drop_patch_behind :
    (patch b offset new).drop (offset + new.length) = b.drop (offset + new.length) := by
  have front : (b.take offset ++ new).length = offset + new.length := by
    rw [List.length_append, List.length_take_of_le (by omega)]
  rw [patch, ← List.append_assoc, ← front, List.drop_left]

theorem window_patch : (patch b offset new).window offset new.length = new := by
  have front : (b.take offset).length = offset := List.length_take_of_le (by omega)
  have middle := Bytes.window_middle (b.take offset) new (b.drop (offset + new.length))
  rwa [front] at middle

theorem getElem?_patch {i : Nat} (h : i < offset ∨ offset + new.length ≤ i) :
    (patch b offset new)[i]? = b[i]? := by
  rcases h with front | behind
  · rw [← List.getElem?_take_of_lt front, take_patch_front room, List.getElem?_take_of_lt front]
  · obtain ⟨k, rfl⟩ := Nat.exists_eq_add_of_le behind
    rw [← List.getElem?_drop, drop_patch_behind room, List.getElem?_drop]

/-- A window in front of the new bytes or behind them is as it was. -/
theorem window_patch_of_disjoint {start width : Nat}
    (h : start + width ≤ offset ∨ offset + new.length ≤ start) :
    (patch b offset new).window start width = b.window start width := by
  refine Bytes.window_congr ?_
  intro i lower upper
  exact getElem?_patch room (by omega)

end Patch

theorem take_patch {b new : Bytes} {offset n : Nat} (h : offset + new.length ≤ n)
    (room : n ≤ b.length) : (patch b offset new).take n = patch (b.take n) offset new := by
  have front : (b.take offset ++ new).length = offset + new.length := by
    rw [List.length_append, List.length_take_of_le (by omega)]
  rw [patch, patch, List.take_take, Nat.min_eq_left (by omega), List.drop_take,
    ← List.append_assoc, ← List.append_assoc, List.take_append, front,
    List.take_of_length_le (by omega)]

/-! ## Storing a digest -/

/-- The container with another digest in its header. -/
def stamp (c : Container) (d : Bytes) : Container where
  header := { c.header with digest := d }
  view := patch c.view 4 d
  parts := c.parts

section Stamp

variable {b d : Bytes} (h : WellFormed b) (sixteen : d.length = 16)
include h sixteen

theorem stamp_room : 4 + d.length ≤ b.length := by
  have := h.length
  omega

/-- Reading does not look at the digest. -/
theorem restates_patch : Restates b (patch b 4 d) where
  length := by
    rw [length_patch (stamp_room h sixteen)]
    exact h.size_le
  agree := by
    intro i _ read
    refine getElem?_patch (stamp_room h sixteen) ?_
    simp only [Unread] at read
    omega

theorem header_patch : Header.read (patch b 4 d) = { Header.read b with digest := d } := by
  have room := stamp_room h sixteen
  have behind : ∀ start width, 20 ≤ start →
      (patch b 4 d).window start width = b.window start width := by
    intro start width after
    exact window_patch_of_disjoint room (.inr (by omega))
  have magic : Tag.ofBytes (patch b 4 d) = Tag.ofBytes b := by
    rw [← Tag.ofBytes_take _ (Nat.le_refl 4), take_patch_front room,
      Tag.ofBytes_take _ (Nat.le_refl 4)]
  have digest : (patch b 4 d).window 4 16 = d := by
    have stored := window_patch room
    rwa [sixteen] at stored
  show Header.mk (Tag.ofBytes (patch b 4 d)) ((patch b 4 d).window 4 16)
      (.ofNat (Bytes.toNatLE ((patch b 4 d).window 20 2)))
      (.ofNat (Bytes.toNatLE ((patch b 4 d).window 22 2)))
      (.ofNat (Bytes.toNatLE ((patch b 4 d).window 24 4)))
      (.ofNat (Bytes.toNatLE ((patch b 4 d).window 28 4))) = _
  rw [magic, digest, behind 20 2 (by decide), behind 22 2 (by decide), behind 24 4 (by decide),
    behind 28 4 (by decide)]
  rfl

theorem view_patch : viewOf (patch b 4 d) = patch (viewOf b) 4 d := by
  have size := h.size_ge
  rw [viewOf, viewOf, (restates_patch h sixteen).declaredSize_eq h.toHeaderFits]
  exact take_patch (by omega) h.size_le

/-- What is read is the same container with the new digest. -/
theorem parse_patch : parse (patch b 4 d) = .ok ((ofBytes b).stamp d) := by
  have restates := restates_patch h sixteen
  refine parse_eq_ok_iff_wellFormed.mpr ⟨restates.wellFormed h, ?_⟩
  refine (Container.mk.injEq ..).mpr ⟨?_, ?_, ?_⟩
  · exact (header_patch h sixteen).symm
  · exact (view_patch h sixteen).symm
  · exact (restates.parts_eq h).symm

end Stamp

/-! ## The digest in pieces -/

/-- The digest that a hasher finds: of what stands before the place of the digest, zeros in that
place, and what stands behind it. -/
def digestInPieces (hasher : MD5.Hasher) (c : Container) : Except ReadError Bytes := do
  let front ← c.view.slice 0 4
  let behind ← c.view.slice 20 (c.view.length - 20)
  return hasher.digest [front, List.replicate 16 0, behind]

theorem digest_eq (c : Container) :
    c.digest = MD5.digest (patch c.view 4 (List.replicate 16 0)) := by
  rw [digest, patch, List.length_replicate, List.append_assoc]

/-- A faithful hasher finds the digest, and neither cut leaves the container. -/
theorem digestInPieces_eq {hasher : MD5.Hasher} (faithful : hasher.Faithful) {c : Container}
    (long : 20 ≤ c.view.length) (small : c.view.length < addressLimit) :
    c.digestInPieces hasher = .ok c.digest := by
  have behind : c.view.window 20 (c.view.length - 20) = c.view.drop 20 :=
    List.take_of_length_le (Nat.le_of_eq List.length_drop)
  rw [digestInPieces, Bytes.slice_eq_ok (by omega) (by omega),
    Bytes.slice_eq_ok (by omega) (by omega), behind, digest]
  show Except.ok (hasher.digest _) = _
  rw [faithful]
  simp [Bytes.window]

/-- The digest is that of the bytes outside its own place. -/
theorem digest_stamp {c : Container} {d : Bytes} (sixteen : d.length = 16)
    (long : 20 ≤ c.view.length) : (c.stamp d).digest = c.digest := by
  have room : 4 + d.length ≤ c.view.length := by omega
  have behind := drop_patch_behind room
  rw [sixteen] at behind
  rw [digest, digest, stamp, take_patch_front room, behind]

/-- Storing sixteen bytes as the digest gives a container with the digest it had before, and the
one that matches is the one that stores that digest.  It is taken of the bytes within the
declared size with zeros in its own place, by any hasher for which only the message counts. -/
theorem stamped_matches_iff {hasher : MD5.Hasher} (faithful : hasher.Faithful) {b : Bytes}
    {c : Container} (accepted : parse b = .ok c) :
    c.digestInPieces hasher = .ok c.digest ∧ c.digest.length = 16 ∧
    c.digest = MD5.digest (patch (b.take c.header.size.toNat) 4 (List.replicate 16 0)) ∧
    ∀ d : Bytes, d.length = 16 →
      parse (patch b 4 d) = .ok (c.stamp d) ∧
      (c.stamp d).digestInPieces hasher = .ok c.digest ∧ (c.stamp d).digest = c.digest ∧
      ((c.stamp d).digestMatches = true ↔ d = c.digest) := by
  obtain ⟨formed, rfl⟩ := parse_eq_ok_iff_wellFormed.mp accepted
  have length : (ofBytes b).view.length = declaredSize b := formed.length_view
  have size := formed.size_ge
  have long : 20 ≤ (ofBytes b).view.length := by omega
  have small : (ofBytes b).view.length < addressLimit := by
    have word := (b.u32At 24).toNat_lt
    rw [length, declaredSize, addressLimit]
    omega
  refine ⟨digestInPieces_eq faithful long small, MD5.length_digest _, digest_eq _, ?_⟩
  intro d sixteen
  have same := digest_stamp sixteen long
  have unchanged : ((ofBytes b).stamp d).view.length = (ofBytes b).view.length :=
    length_patch (by omega)
  refine ⟨parse_patch formed sixteen, ?_, same, ?_⟩
  · rw [digestInPieces_eq faithful (by omega) (by omega), same]
  · rw [digestMatches, same, beq_iff_eq, eq_comm]
    rfl

/-- A container of one part, and more bytes than it declares. -/
def unsigned : Bytes := build [(.program, [1, 2, 3, 4])] ++ [68, 88]

/-- Its digest goes into the header, and the bytes behind it stay. -/
theorem stamped_matches_iff_unsigned :
    MD5.pieceByPiece.Faithful ∧ ∃ c, parse unsigned = .ok c ∧
      parse (patch unsigned 4 c.digest) = .ok (c.stamp c.digest) ∧
      (c.stamp c.digest).digestMatches = true ∧ c.digestMatches = false := by
  have accepted : parse unsigned =
      .ok ⟨Header.read unsigned, build [(.program, [1, 2, 3, 4])], [⟨.program, 36, 4⟩]⟩ := rfl
  obtain ⟨-, sixteen, -, stamps⟩ := stamped_matches_iff MD5.faithful_pieceByPiece accepted
  obtain ⟨stamped, -, -, matching⟩ := stamps _ sixteen
  exact ⟨MD5.faithful_pieceByPiece, _, accepted, stamped, matching.mpr rfl, by decide +kernel⟩

end ShaderReport.Container
