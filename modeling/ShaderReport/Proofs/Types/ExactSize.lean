/-
# Sizes without a limit

`Footprint` gives the alignment and the size of every type by the rules of the data
layout, in numbers that have no limit.  It shares no arithmetic with `Extent`, which
computes with 64-bit words and holds a size that does not fit at the largest one.

The two are compared rule by rule (`Agrees`).  Alignments are equal, and a size is the
exact one, held at the largest.  What makes this go through is that every alignment
divides two to the 64th: a size that is held there is one short of a multiple of every
alignment, so aligning it leaves it where it is (`alignTo_saturate`), and no later sum
or product makes it smaller.

An array of no elements is the one way back from a size that does not fit, and there
the exact size is zero as well.

The sizes of vectors are not held anywhere.  They stay below the limit because a lane
is a scalar, and its bits and the number of lanes are 32-bit words (`bits_of_lane`).
-/
import Mathlib.Algebra.Order.Floor.Div
import Mathlib.Data.List.Fold
import Mathlib.Data.Nat.Log
import ShaderReport.Proofs.Types.Measure

namespace ShaderReport

/-! ## The rules -/

/-- The room of a type in bytes, whatever the number is. -/
structure Footprint where
  alignment : Nat
  size : Nat
deriving DecidableEq, Inhabited

/-- The width of a scalar in bits; other types have none. -/
def Shape.scalarBits : Shape → Nat
  | .integer bits => bits.toNat
  | .half => 16
  | .float | .pointer .. => 32
  | .double => 64
  | _ => 0

namespace Footprint

/-- The least multiple of `alignment` that is not below `n`. -/
def padded (n alignment : Nat) : Nat := alignment * (n ⌈/⌉ alignment)

/-- A scalar: its bytes, padded to its alignment. -/
def scalar (bits alignment : Nat) : Footprint := ⟨alignment, padded (bits ⌈/⌉ 8) alignment⟩

/-- Lanes side by side, rounded up to a power of two; no bytes stay no bytes. -/
def lanes (bits : Nat) : Footprint :=
  let power := 2 ^ Nat.clog 2 (bits ⌈/⌉ 8)
  ⟨power, if bits = 0 then 0 else power⟩

/-- The end of a field that begins at the first multiple of its alignment from `offset` on. -/
def behind (offset : Nat) (field : Footprint) : Nat := padded offset field.alignment + field.size

/-- The largest alignment of any field. -/
def largest (fields : List Footprint) : Nat := (fields.map alignment).foldr max 1

/-- Fields in order, and the whole padded to the largest alignment. -/
def fields (fields : List Footprint) : Footprint :=
  ⟨largest fields, padded (fields.foldl behind 0) (largest fields)⟩

/-- The room of a shape, given that of its components; the lanes of a vector are looked up
in the table. -/
def ofShape (t : TypeTable) (below : TypeId → Footprint) : Shape → Footprint
  | .void | .label | .metadata | .function .. => ⟨1, 0⟩
  | .integer bits => scalar bits.toNat (if bits.toNat ≤ 32 then 4 else 8)
  | .half => scalar 16 4
  | .float | .pointer .. => scalar 32 4
  | .double => scalar 64 8
  | .vector element length => lanes (((t.shape? element).elim 0 Shape.scalarBits) * length.toNat)
  | .array element length => ⟨(below element).alignment, (below element).size * length.toNat⟩
  | .struct _ members => fields (members.map below)

theorem ofShape_congr {t : TypeTable} {s : Shape} {below below' : TypeId → Footprint}
    (agree : ∀ c ∈ s.components, below c = below' c) : ofShape t below s = ofShape t below' s := by
  cases s with
  | array element length => simp only [ofShape, agree element List.mem_cons_self]
  | struct name members =>
      have same : members.map below = members.map below' := List.map_congr_left agree
      rw [ofShape, ofShape, same]
  | _ => rfl

end Footprint

namespace TypeTable

/-- The room of the type at a place, whatever the numbers are. -/
def footprint (t : TypeTable) : TypeId → Footprint :=
  t.fold fun _ s below => Footprint.ofShape t below s

theorem footprint_eq {t : TypeTable} (ht : t.Ordered) {id : TypeId} {s : Shape}
    (h : t.shape? id = some s) : t.footprint id = Footprint.ofShape t t.footprint s :=
  fold_eq_of_components ht h Footprint.ofShape_congr

end TypeTable

/-! ## Numbers held at the largest size -/

theorem saturate_eq_self {n : Nat} (h : n ≤ maxSize) : saturate n = n := Nat.min_eq_left h

theorem saturate_eq_max {n : Nat} (h : maxSize ≤ n) : saturate n = maxSize := Nat.min_eq_right h

theorem saturate_add (m n : Nat) : saturate (saturate m + saturate n) = saturate (m + n) := by
  unfold saturate
  omega

theorem saturate_mul (n k : Nat) : saturate (saturate n * k) = saturate (n * k) := by
  rcases Nat.le_total n maxSize with small | large
  · rw [saturate_eq_self small]
  · rw [saturate_eq_max large]
    rcases Nat.eq_zero_or_pos k with rfl | pos
    · rfl
    · have held : maxSize ≤ maxSize * k := Nat.le_mul_of_pos_right _ pos
      have beyond : maxSize ≤ n * k := Nat.le_trans large (Nat.le_mul_of_pos_right _ pos)
      rw [saturate_eq_max held, saturate_eq_max beyond]

namespace Footprint

theorem le_padded (n : Nat) {a : Nat} (h : 0 < a) : n ≤ padded n a :=
  (ceilDiv_le_iff_le_mul h).mp (Nat.le_refl _)

theorem padded_one (n : Nat) : padded n 1 = n := by
  rw [padded, Nat.one_mul, Nat.ceilDiv_eq_add_pred_div, Nat.add_sub_cancel, Nat.div_one]

theorem padded_of_le {n a : Nat} (pos : 0 < n) (h : n ≤ a) : padded n a = a := by
  have one : (n + a - 1) / a = 1 := Nat.div_eq_of_lt_le (by omega) (by omega)
  rw [padded, Nat.ceilDiv_eq_add_pred_div, one, Nat.mul_one]

end Footprint

/-- Aligning a size that is held at the largest leaves it there. -/
theorem alignTo_saturate {a : Nat} (h : a ∣ 2 ^ 64) (n : Nat) :
    alignTo (saturate n) a = saturate (Footprint.padded n a) := by
  have pos : 0 < a := Nat.pos_of_dvd_of_pos h (Nat.two_pow_pos 64)
  unfold alignTo
  split
  · rename_i le
    obtain rfl : a = 1 := Nat.le_antisymm le pos
    rw [Footprint.padded_one]
  · rename_i large
    rcases Nat.le_total n maxSize with small | beyond
    · rw [saturate_eq_self small, Footprint.padded, Nat.ceilDiv_eq_add_pred_div, Nat.mul_comm]
      rfl
    · -- the largest size is one short of a multiple, so it is rounded up past itself
      obtain ⟨q, hq⟩ := h
      have groups : ceilDiv maxSize a = q := by
        have total : maxSize + a - 1 = a * q + (a - 2) := by
          rw [← hq, maxSize]
          omega
        rw [ceilDiv, total, Nat.mul_add_div pos, Nat.div_eq_of_lt (by omega), Nat.add_zero]
      have held : maxSize ≤ q * a := by
        rw [Nat.mul_comm, ← hq, maxSize]
        decide
      rw [saturate_eq_max beyond, groups, saturate_eq_max held,
        saturate_eq_max (Nat.le_trans beyond (Footprint.le_padded n pos))]

theorem leastPowerOfTwo_eq (n : Nat) : leastPowerOfTwo n = 2 ^ Nat.clog 2 n := by
  unfold leastPowerOfTwo
  split
  · rename_i h
    rw [Nat.clog_of_right_le_one h, Nat.pow_zero]
  · rename_i h
    have ne : n - 1 ≠ 0 := by omega
    have lower : 2 ^ (n - 1).log2 < n := by
      have := Nat.log2_self_le ne
      omega
    have upper : n ≤ 2 ^ ((n - 1).log2 + 1) := by
      have := @Nat.lt_log2_self (n - 1)
      omega
    rw [Nat.one_shiftLeft]
    congr 1
    exact Nat.le_antisymm ((Nat.lt_clog_iff_pow_lt Nat.one_lt_two).mpr lower)
      (Nat.clog_le_of_le_pow upper)

/-! ## Rule by rule -/

/-- The bytes of so many lanes, both numbers being 32-bit words. -/
theorem bytes_le {bits length : Nat} (narrow : bits < 4294967296) (few : length < 4294967296) :
    ceilDiv (bits * length) 8 ≤ 2 ^ 61 := by
  have product : bits * length ≤ 4294967295 * 4294967295 :=
    Nat.mul_le_mul (Nat.le_of_lt_succ narrow) (Nat.le_of_lt_succ few)
  unfold ceilDiv
  omega

/-- Equal alignments, and the exact size held at the largest. -/
structure Agrees (e : Extent) (f : Footprint) : Prop where
  alignment : e.alignment = f.alignment
  divides : f.alignment ∣ 2 ^ 64
  allocSize : e.allocSize = saturate f.size

namespace Agrees

theorem nothing : Agrees Extent.nothing ⟨1, 0⟩ := ⟨rfl, Nat.one_dvd _, rfl⟩

theorem scalar {bits a : Nat} (small : bits < 4294967296) (h : a ∣ 2 ^ 64) :
    Agrees (Extent.scalar bits a) (Footprint.scalar bits a) where
  alignment := rfl
  divides := h
  allocSize := by
    have bytes : ceilDiv bits 8 ≤ maxSize := by
      unfold ceilDiv maxSize
      omega
    have result : (Extent.scalar bits a).allocSize = alignTo (saturate (ceilDiv bits 8)) a := by
      rw [saturate_eq_self bytes, Extent.scalar]
    rw [result, alignTo_saturate h, Footprint.scalar, Nat.ceilDiv_eq_add_pred_div]
    rfl

/-- Lanes take the power of two that their bytes are rounded up to. -/
theorem lanes {lane : Extent} {length : Nat} (narrow : lane.laneBits < 4294967296)
    (few : length < 4294967296) :
    Agrees (Extent.vector lane length) (Footprint.lanes (lane.laneBits * length)) := by
  have bytes : (lane.laneBits * length) ⌈/⌉ 8 = ceilDiv (lane.laneBits * length) 8 :=
    Nat.ceilDiv_eq_add_pred_div ..
  have short := bytes_le narrow few
  have power := leastPowerOfTwo_eq (ceilDiv (lane.laneBits * length) 8)
  have dvd : 2 ^ Nat.clog 2 (ceilDiv (lane.laneBits * length) 8) ∣ 2 ^ 64 :=
    Nat.pow_dvd_pow 2 (Nat.le_trans (Nat.clog_le_of_le_pow short) (by decide))
  constructor
  case alignment =>
      rw [Footprint.lanes, bytes]
      exact power
  case divides =>
      rw [Footprint.lanes, bytes]
      exact dvd
  case allocSize =>
      have held : saturate (ceilDiv (lane.laneBits * length) 8) =
          ceilDiv (lane.laneBits * length) 8 := saturate_eq_self (Nat.le_trans short (by decide))
      have result : (Extent.vector lane length).allocSize =
          alignTo (saturate (ceilDiv (lane.laneBits * length) 8))
            (2 ^ Nat.clog 2 (ceilDiv (lane.laneBits * length) 8)) := by
        rw [held, ← power]
        rfl
      rw [result, alignTo_saturate dvd, Footprint.lanes, bytes]
      congr 1
      split
      · rename_i none
        rw [none]
        rfl
      · rename_i some
        refine Footprint.padded_of_le ?_ (Nat.le_pow_clog Nat.one_lt_two _)
        unfold ceilDiv
        omega

theorem array {e : Extent} {f : Footprint} (h : Agrees e f) (length : Nat) :
    Agrees (Extent.array e length) ⟨f.alignment, f.size * length⟩ where
  alignment := h.alignment
  divides := h.divides
  allocSize := by
    have result : (Extent.array e length).allocSize = saturate (e.allocSize * length) := rfl
    rw [result, h.allocSize, saturate_mul]

theorem fieldEnd {e : Extent} {f : Footprint} (h : Agrees e f) (offset : Nat) :
    Extent.fieldEnd (saturate offset) e = saturate (Footprint.behind offset f) := by
  rw [Extent.fieldEnd, h.alignment, h.allocSize, alignTo_saturate h.divides, saturate_add]
  rfl

section Fields

variable {extent : TypeId → Extent} {footprint : TypeId → Footprint} {members : List TypeId}
  (h : ∀ c ∈ members, Agrees (extent c) (footprint c))
include h

theorem ends (offset : Nat) :
    (members.map extent).foldl Extent.fieldEnd (saturate offset) =
      saturate ((members.map footprint).foldl Footprint.behind offset) := by
  induction members generalizing offset with
  | nil => rfl
  | cons c members ih =>
      obtain ⟨head, tail⟩ := List.forall_mem_cons.mp h
      rw [List.map_cons, List.map_cons, List.foldl_cons, List.foldl_cons, head.fieldEnd]
      exact ih tail _

theorem largest :
    Extent.largestAlignment (members.map extent) = Footprint.largest (members.map footprint) := by
  have same : members.map (fun c => (extent c).alignment) =
      members.map fun c => (footprint c).alignment :=
    List.map_congr_left fun c hc => (h c hc).alignment
  rw [Extent.largestAlignment, List.foldl_map, ← List.foldl_map, same, Footprint.largest,
    List.map_map, List.foldl_eq_foldr]
  rfl

theorem largest_dvd : Footprint.largest (members.map footprint) ∣ 2 ^ 64 := by
  induction members with
  | nil => exact Nat.one_dvd _
  | cons c members ih =>
      obtain ⟨head, tail⟩ := List.forall_mem_cons.mp h
      have step : Footprint.largest ((c :: members).map footprint) =
          max (footprint c).alignment (Footprint.largest (members.map footprint)) := rfl
      rw [step]
      rcases max_choice (footprint c).alignment (Footprint.largest (members.map footprint)) with
        left | right
      · rw [left]
        exact head.divides
      · rw [right]
        exact ih tail

theorem struct : Agrees (Extent.struct (members.map extent))
    (Footprint.fields (members.map footprint)) where
  alignment := largest h
  divides := largest_dvd h
  allocSize := by
    have result : (Extent.struct (members.map extent)).allocSize =
        alignTo ((members.map extent).foldl Extent.fieldEnd (saturate 0))
          (Extent.largestAlignment (members.map extent)) := rfl
    rw [result, ends h, largest h, alignTo_saturate (largest_dvd h)]
    rfl

end Fields

end Agrees

/-! ## Whole tables -/

section Table

variable {t : TypeTable} (ht : t.Ordered) (hv : t.ScalarVectors)
include hv

/-- The lanes of a vector are scalars. -/
theorem scalar_of_lane {id element : TypeId} {length : UInt32}
    (h : t.shape? id = some (.vector element length)) :
    ∃ s, t.shape? element = some s ∧ s.isScalar = true := by
  have scalar := hv _ (List.mem_of_getElem? h) element rfl
  cases hs : t.shape? element with
  | none =>
      rw [hs] at scalar
      cases scalar
  | some s =>
      rw [hs] at scalar
      exact ⟨s, rfl, scalar⟩

include ht

/-- The bits of a lane are those of its scalar, and they are a 32-bit word. -/
theorem bits_of_lane {id element : TypeId} {length : UInt32}
    (h : t.shape? id = some (.vector element length)) :
    (t.extent element).laneBits = (t.shape? element).elim 0 Shape.scalarBits ∧
      (t.extent element).laneBits < 4294967296 := by
  obtain ⟨s, hs, scalar⟩ := scalar_of_lane hv h
  rw [t.extent_eq ht hs, hs]
  cases s with
  | integer bits => exact ⟨rfl, bits.toNat_lt⟩
  | half | float | double | pointer _ _ =>
      exact ⟨rfl, Nat.le_of_ble_eq_true rfl⟩
  | _ => cases scalar

/-- One type agrees if its components do. -/
theorem agrees_ofShape {id : TypeId} {s : Shape} (h : t.shape? id = some s)
    (below : ∀ c ∈ s.components, Agrees (t.extent c) (t.footprint c)) :
    Agrees (Extent.ofShape t.extent s) (Footprint.ofShape t t.footprint s) := by
  have four : 4 ∣ 2 ^ 64 := by decide
  have eight : 8 ∣ 2 ^ 64 := by decide
  cases s with
  | integer bits =>
      have small : bits.toNat < 4294967296 := bits.toNat_lt
      rw [Extent.ofShape, Footprint.ofShape]
      by_cases wide : 32 < bits.toNat
      · rw [if_pos wide, if_neg (Nat.not_le.mpr wide)]
        exact .scalar small eight
      · rw [if_neg wide, if_pos (Nat.not_lt.mp wide)]
        exact .scalar small four
  | half => exact .scalar (by decide) four
  | float => exact .scalar (by decide) four
  | pointer _ _ => exact .scalar (by decide) four
  | double => exact .scalar (by decide) eight
  | vector element length =>
      obtain ⟨bits, narrow⟩ := bits_of_lane ht hv h
      rw [Footprint.ofShape, ← bits]
      exact .lanes narrow length.toNat_lt
  | array element length => exact (below element List.mem_cons_self).array length.toNat
  | struct name members => exact .struct below
  | _ => exact .nothing

theorem agrees {id : TypeId} (h : id < t.size) : Agrees (t.extent id) (t.footprint id) := by
  induction id using Nat.strongRecOn with
  | ind id ih =>
    obtain ⟨s, hs⟩ := TypeTable.exists_shape? h
    rw [t.extent_eq ht hs, t.footprint_eq ht hs]
    refine agrees_ofShape ht hv hs ?_
    intro c hc
    have older : c < id := ht id s hs c hc
    exact ih c older (Nat.lt_trans older h)

/-- What is not held at the largest size has 64 bits without that. -/
theorem unsaturated_le {n : Nat} (h : t.Unsaturated n) : n ≤ maxSize := by
  cases h with
  | @bits id element length h =>
      have narrow := (bits_of_lane ht hv h).2
      have product := Nat.mul_le_mul (Nat.le_of_lt_succ narrow)
        (Nat.le_of_lt_succ length.toNat_lt)
      exact Nat.le_trans product (by decide)
  | @power id element length h =>
      have stored : (t.extent id).storeSize =
          ceilDiv ((t.extent element).laneBits * length.toNat) 8 := by
        rw [t.extent_eq ht h]
        rfl
      have short := bytes_le (bits_of_lane ht hv h).2 length.toNat_lt
      rw [stored, leastPowerOfTwo_eq]
      exact Nat.le_trans (Nat.pow_le_pow_right Nat.two_pos (Nat.clog_le_of_le_pow short))
        (by decide)
  | @lane id s h hs other =>
      obtain ⟨vector, length, hvector⟩ := h
      obtain ⟨s', hs', scalar⟩ := scalar_of_lane hv hvector
      rw [hs] at hs'
      cases hs'
      rw [scalar] at other
      cases other

end Table

/-- The size of every type is the exact one, held at the largest 64-bit word.  It is what
the recursion answers with in which no other result may pass 64 bits: none does. -/
theorem allocSize_eq_min_exact {t : TypeTable} (ht : t.Built) (hv : t.ScalarVectors) {id : Nat}
    (h : id < t.size) :
    t.allocSize id = min (t.footprint id).size (2 ^ 64 - 1) ∧
    t.measure? word? (4 * id + 4) .allocSize id = some (t.allocSize id) ∧
    ∀ depth, 4 * id + 3 < depth → ∀ aspect, aspect ≠ .laneBits →
      t.measure? word? depth aspect id = some ((t.extent id).get aspect) := by
  have ordered := ht.ordered
  have fits : ∀ n, t.Unsaturated n → word? n = some n := by
    intro n hn
    exact if_pos (unsaturated_le ordered hv hn)
  refine ⟨(agrees ordered hv h).allocSize, ?_, ?_⟩
  · exact t.measure?_eq ordered h (Nat.lt_succ_self _) fits nofun
  · intro depth deep aspect ha
    exact t.measure?_eq ordered h deep fits ha

/-- Arrays on both sides of the limit, an array of no elements of a type that does not
fit, and structs of them. -/
def hugeRequests : List Request :=
  [.shape .half, .shape (.vector 0 3), .shape (.array 1 2305843009213693951),
   .shape (.array 1 2305843009213693952), .shape (.array 3 0),
   .shape (.struct none [0, 4, 2]), .shape (.struct none [3, 0])]

/-- The exact sizes of the types of `hugeRequests`; three of them do not fit. -/
def hugeSizes : List Nat :=
  [4, 8, 18446744073709551608, 18446744073709551616, 0, 18446744073709551616,
   18446744073709551624]

theorem allocSize_eq_min_exact_huge :
    (List.range 7).map (fun id => (TypeTable.footprint (TypeTable.run {} hugeRequests) id).size) =
      hugeSizes ∧
    ∀ id < 7, TypeTable.allocSize (TypeTable.run {} hugeRequests) id =
        min ((TypeTable.run {} hugeRequests).footprint id).size (2 ^ 64 - 1) := by
  have built : (TypeTable.run {} hugeRequests).Built := ⟨hugeRequests, by decide +kernel, rfl⟩
  have scalars : (TypeTable.run {} hugeRequests).ScalarVectors := by decide +kernel
  refine ⟨by decide +kernel, ?_⟩
  intro id h
  exact (allocSize_eq_min_exact built scalars h).1

end ShaderReport
