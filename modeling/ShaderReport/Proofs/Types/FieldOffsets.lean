/-
# Where the fields of a struct stand

The size of a struct is computed without writing down where its fields stand.  Here
they are given offsets (`placed`), each the least multiple of the field's alignment
that is not below the end of the field before it, and the size is what the last of
them needs, rounded up.

That this is a memory layout rests on two facts about every type (`Sound`), proved
together over the types a type is made from: its alignment is a power of two, and its
size is a multiple of its alignment.  Of two powers of two the smaller divides the
larger.  So the alignment of a struct, the largest of its fields' alignments, is a
multiple of all of them, and a struct that is moved by a multiple of its own size keeps
its fields aligned.

Both facts hold of the sizes without a limit.  They hold of the sizes held at the limit
as far as these are the exact ones, and if a struct has its exact size, so do its fields.
-/
import Mathlib.Algebra.Order.BigOperators.Group.List
import Mathlib.Order.Bounds.Basic
import ShaderReport.Proofs.Types.ExactSize

namespace ShaderReport

namespace Footprint

/-! ## Rounding up -/

theorem isLeast_padded (n : Nat) {a : Nat} (pos : 0 < a) :
    IsLeast {o | a ∣ o ∧ n ≤ o} (padded n a) := by
  refine ⟨⟨Nat.dvd_mul_right _ _, le_padded n pos⟩, ?_⟩
  rintro o ⟨⟨q, rfl⟩, above⟩
  exact Nat.mul_le_mul_left a ((ceilDiv_le_iff_le_mul pos).mpr above)

theorem padded_lt (n : Nat) {a : Nat} (pos : 0 < a) : padded n a < n + a := by
  have groups := Nat.mul_div_le (n + a - 1) a
  rw [padded, Nat.ceilDiv_eq_add_pred_div]
  omega

/-! ## Alignments are powers of two -/

/-- An alignment that is a power of two, and a size that is a multiple of it. -/
structure Sound (f : Footprint) : Prop where
  power : ∃ k, f.alignment = 2 ^ k
  multiple : f.alignment ∣ f.size

namespace Sound

theorem pos {f : Footprint} (h : f.Sound) : 0 < f.alignment := by
  obtain ⟨k, e⟩ := h.power
  rw [e]
  exact Nat.two_pow_pos k

theorem nothing : Sound ⟨1, 0⟩ := ⟨⟨0, rfl⟩, Nat.dvd_zero _⟩

theorem scalar (bits : Nat) {a : Nat} (h : ∃ k, a = 2 ^ k) : Sound (Footprint.scalar bits a) :=
  ⟨h, Nat.dvd_mul_right _ _⟩

theorem lanes (bits : Nat) : Sound (Footprint.lanes bits) := by
  refine ⟨⟨_, rfl⟩, ?_⟩
  rw [Footprint.lanes]
  split
  · exact Nat.dvd_zero _
  · exact Nat.dvd_refl _

theorem array {f : Footprint} (h : f.Sound) (length : Nat) :
    Sound ⟨f.alignment, f.size * length⟩ :=
  ⟨h.power, Nat.dvd_mul_right_of_dvd h.multiple length⟩

section Fields

variable {fs : List Footprint} (h : ∀ f ∈ fs, f.Sound)
include h

theorem largest_power : ∃ k, largest fs = 2 ^ k := by
  induction fs with
  | nil => exact ⟨0, rfl⟩
  | cons f fs ih =>
      obtain ⟨head, tail⟩ := List.forall_mem_cons.mp h
      have step : largest (f :: fs) = max f.alignment (largest fs) := rfl
      rw [step]
      rcases max_choice f.alignment (largest fs) with left | right
      · rw [left]
        exact head.power
      · rw [right]
        exact ih tail

omit h in
theorem le_largest {f : Footprint} (member : f ∈ fs) : f.alignment ≤ largest fs := by
  induction fs with
  | nil => cases member
  | cons g fs ih =>
      have step : largest (g :: fs) = max g.alignment (largest fs) := rfl
      rw [step]
      rcases List.mem_cons.mp member with rfl | member
      · exact Nat.le_max_left _ _
      · exact Nat.le_trans (ih member) (Nat.le_max_right _ _)

/-- The largest alignment is a multiple of every other. -/
theorem dvd_largest {f : Footprint} (member : f ∈ fs) : f.alignment ∣ largest fs := by
  obtain ⟨k, hk⟩ := (h f member).power
  obtain ⟨n, hn⟩ := largest_power h
  have le := le_largest member
  rw [hk, hn] at le ⊢
  exact Nat.pow_dvd_pow 2 ((Nat.pow_le_pow_iff_right Nat.one_lt_two).mp le)

theorem fields : Sound (Footprint.fields fs) := ⟨largest_power h, Nat.dvd_mul_right _ _⟩

end Fields

end Sound

/-! ## Offsets -/

section Placed

variable (room : TypeId → Footprint)

/-- Fields with their offsets, the first at the least one from `start` on. -/
def placed (start : Nat) : List TypeId → List (TypeId × Nat)
  | [] => []
  | field :: rest =>
    let offset := padded start (room field).alignment
    (field, offset) :: placed (offset + (room field).size) rest

/-- Where a field that has an offset ends. -/
def stop (p : TypeId × Nat) : Nat := p.2 + (room p.1).size

theorem map_fst_placed (start : Nat) (fields : List TypeId) :
    (placed room start fields).map Prod.fst = fields := by
  induction fields generalizing start with
  | nil => rfl
  | cons field rest ih => rw [placed, List.map_cons, ih]

theorem head?_placed (field : TypeId) (rest : List TypeId) :
    (placed room 0 (field :: rest)).head? = some (field, 0) := by
  have zero : padded 0 (room field).alignment = 0 := by
    rw [padded, zero_ceilDiv, Nat.mul_zero]
  rw [placed, zero]
  rfl

/-- The fields end where the last of them ends. -/
theorem foldl_behind_eq (start : Nat) (fields : List TypeId) :
    (fields.map room).foldl behind start =
      ((placed room start fields).getLast?.map (stop room)).getD start := by
  induction fields generalizing start with
  | nil => rfl
  | cons field rest ih =>
      rw [List.map_cons, List.foldl_cons, ih, placed, List.getLast?_cons, behind]
      cases (placed room (padded start (room field).alignment + (room field).size)
        rest).getLast? with
      | none => rfl
      | some p => rfl

variable {room} {fields : List TypeId} (pos : ∀ c ∈ fields, 0 < (room c).alignment)
include pos

theorem isChain_placed (start : Nat) :
    (placed room start fields).IsChain fun a b =>
      IsLeast {o | (room b.1).alignment ∣ o ∧ stop room a ≤ o} b.2 := by
  induction fields generalizing start with
  | nil => exact .nil
  | cons field rest ih =>
      obtain ⟨-, tail⟩ := List.forall_mem_cons.mp pos
      cases rest with
      | nil => exact .singleton _
      | cons next rest =>
          exact .cons_cons (isLeast_padded _ (tail next List.mem_cons_self)) (ih tail _)

omit pos in
theorem dvd_of_mem_placed {start : Nat} {p : TypeId × Nat} (member : p ∈ placed room start fields) :
    (room p.1).alignment ∣ p.2 := by
  induction fields generalizing start with
  | nil => cases member
  | cons field rest ih =>
      rcases List.mem_cons.mp member with rfl | member
      · exact Nat.dvd_mul_right _ _
      · exact ih member

theorem sum_le_foldl_behind (start : Nat) :
    start + (fields.map fun c => (room c).size).sum ≤ (fields.map room).foldl behind start := by
  induction fields generalizing start with
  | nil => exact Nat.le_refl _
  | cons field rest ih =>
      obtain ⟨head, tail⟩ := List.forall_mem_cons.mp pos
      have above := le_padded start head
      have later := ih tail (behind start (room field))
      rw [List.map_cons, List.sum_cons, List.map_cons, List.foldl_cons]
      unfold behind at later ⊢
      omega

theorem stop_le_of_mem_placed {start : Nat} {p : TypeId × Nat}
    (member : p ∈ placed room start fields) :
    start ≤ p.2 ∧ stop room p ≤ (fields.map room).foldl behind start := by
  induction fields generalizing start with
  | nil => cases member
  | cons field rest ih =>
      obtain ⟨head, tail⟩ := List.forall_mem_cons.mp pos
      have above := le_padded start head
      rcases List.mem_cons.mp member with rfl | member
      · refine ⟨above, ?_⟩
        exact Nat.le_trans (Nat.le_add_right _ _) (sum_le_foldl_behind tail _)
      · obtain ⟨behind, inside⟩ := ih tail member
        exact ⟨Nat.le_trans above (Nat.le_trans (Nat.le_add_right _ _) behind), inside⟩

theorem pairwise_placed (start : Nat) :
    (placed room start fields).Pairwise fun a b => stop room a ≤ b.2 := by
  induction fields generalizing start with
  | nil => exact .nil
  | cons field rest ih =>
      obtain ⟨-, tail⟩ := List.forall_mem_cons.mp pos
      refine .cons ?_ (ih tail _)
      intro p member
      exact (stop_le_of_mem_placed tail member).1

omit pos in
/-- A struct is large enough for its fields and for what is lost between them. -/
theorem foldl_behind_le (sound : ∀ c ∈ fields, (room c).Sound) :
    (fields.map room).foldl behind 0 ≤ (Footprint.fields (fields.map room)).size ∧
    (Footprint.fields (fields.map room)).size <
      (fields.map room).foldl behind 0 + (Footprint.fields (fields.map room)).alignment := by
  have whole : (Footprint.fields (fields.map room)).Sound :=
    .fields (List.forall_mem_map.mpr sound)
  exact ⟨le_padded _ whole.pos, padded_lt _ whole.pos⟩

omit pos in
theorem sum_le_size (sound : ∀ c ∈ fields, (room c).Sound) :
    (fields.map fun c => (room c).size).sum ≤ (Footprint.fields (fields.map room)).size := by
  have pos : ∀ c ∈ fields, 0 < (room c).alignment := fun c hc => (sound c hc).pos
  have ends := sum_le_foldl_behind pos 0
  rw [Nat.zero_add] at ends
  exact Nat.le_trans ends (foldl_behind_le sound).1

end Placed

end Footprint

/-! ## Whole tables -/

namespace TypeTable

variable {t : TypeTable}

theorem sound_footprint (ht : t.Ordered) {id : TypeId} (h : id < t.size) :
    (t.footprint id).Sound := by
  induction id using Nat.strongRecOn with
  | ind id ih =>
    obtain ⟨s, hs⟩ := exists_shape? h
    have below : ∀ c ∈ s.components, (t.footprint c).Sound := by
      intro c hc
      have older : c < id := ht id s hs c hc
      exact ih c older (Nat.lt_trans older h)
    have four : ∃ k, 4 = 2 ^ k := ⟨2, rfl⟩
    have eight : ∃ k, 8 = 2 ^ k := ⟨3, rfl⟩
    rw [t.footprint_eq ht hs]
    cases s with
    | integer bits =>
        rw [Footprint.ofShape]
        split
        · exact .scalar _ four
        · exact .scalar _ eight
    | half => exact .scalar _ four
    | float => exact .scalar _ four
    | pointer _ _ => exact .scalar _ four
    | double => exact .scalar _ eight
    | vector element length => exact .lanes _
    | array element length => exact (below element List.mem_cons_self).array _
    | struct name members => exact .fields (List.forall_mem_map.mpr below)
    | _ => exact .nothing

/-- What the table says of the room of a type. -/
def room (t : TypeTable) (id : TypeId) : Footprint := ⟨(t.extent id).alignment, t.allocSize id⟩

theorem room_eq (ht : t.Ordered) (hv : t.ScalarVectors) {id : TypeId} (h : id < t.size)
    (fits : (t.footprint id).size < 2 ^ 64 - 1) : t.room id = t.footprint id := by
  have agrees := agrees ht hv h
  have size : t.allocSize id = (t.footprint id).size :=
    agrees.allocSize.trans (saturate_eq_self (Nat.le_of_lt fits))
  rw [room, size, agrees.alignment]

/-- The fields of a struct in their places, with room behind the last one for no more than
the alignment of the struct asks for. -/
structure SoundLayout (t : TypeTable) (id : TypeId) (members : List TypeId)
    (placed : List (TypeId × Nat)) : Prop where
  fields : placed.map Prod.fst = members
  first : ∃ field, placed.head? = some (field, 0)
  /-- Each offset is the least that is aligned and behind the field before. -/
  next : placed.IsChain fun a b =>
    IsLeast {o | (t.extent b.1).alignment ∣ o ∧ a.2 + t.allocSize a.1 ≤ o} b.2
  last : ∀ p, placed.getLast? = some p → p.2 + t.allocSize p.1 ≤ t.allocSize id ∧
    t.allocSize id < p.2 + t.allocSize p.1 + (t.extent id).alignment
  apart : placed.Pairwise fun a b => a.2 + t.allocSize a.1 ≤ b.2
  inside : ∀ p ∈ placed, p.2 + t.allocSize p.1 ≤ t.allocSize id
  total : (members.map t.allocSize).sum ≤ t.allocSize id
  /-- So many structs further on, every field is aligned where a struct may begin. -/
  aligned : ∀ base, (t.extent id).alignment ∣ base → ∀ n, ∀ p ∈ placed,
    (t.extent p.1).alignment ∣ base + n * t.allocSize id + p.2

section Struct

variable {id : TypeId} {name : Option String} {members : List TypeId}
  (ht : t.Ordered) (hv : t.ScalarVectors) (fits : (t.footprint id).size < 2 ^ 64 - 1)
  (struct : t.shape? id = some (.struct name members))
include ht hv fits struct

/-- The fields of a struct that has its exact size have theirs. -/
theorem room_of_mem {c : TypeId} (hc : c ∈ members) : t.room c = t.footprint c := by
  have older : ∀ c ∈ members, c < t.size := fun c hc =>
    Nat.lt_trans (ht id _ struct c hc) (lt_size_of_shape? struct)
  have enough := Footprint.sum_le_size fun c hc => sound_footprint ht (older c hc)
  have whole : t.footprint id = Footprint.fields (members.map t.footprint) :=
    t.footprint_eq ht struct
  have part : (t.footprint c).size ≤ (members.map fun c => (t.footprint c).size).sum :=
    List.le_sum_of_mem (List.mem_map_of_mem hc)
  rw [whole] at fits
  exact room_eq ht hv (older c hc) (Nat.lt_of_le_of_lt (Nat.le_trans part enough) fits)

theorem sound_of_mem {c : TypeId} (hc : c ∈ members) : (t.room c).Sound := by
  rw [room_of_mem ht hv fits struct hc]
  exact sound_footprint ht (Nat.lt_trans (ht id _ struct c hc) (lt_size_of_shape? struct))

theorem room_struct : t.room id = Footprint.fields (members.map t.room) := by
  have same : members.map t.room = members.map t.footprint :=
    List.map_congr_left fun _ => room_of_mem ht hv fits struct
  rw [same, room_eq ht hv (lt_size_of_shape? struct) fits]
  exact t.footprint_eq ht struct

theorem soundLayout_placed (some : members ≠ []) :
    t.SoundLayout id members (Footprint.placed t.room 0 members) := by
  have sound : ∀ c ∈ members, (t.room c).Sound := fun c => sound_of_mem ht hv fits struct
  have sounds : ∀ f ∈ members.map t.room, f.Sound := List.forall_mem_map.mpr sound
  have pos : ∀ c ∈ members, 0 < (t.room c).alignment := fun c hc => (sound c hc).pos
  have whole := room_struct ht hv fits struct
  have size : t.allocSize id = (Footprint.fields (members.map t.room)).size :=
    congrArg Footprint.size whole
  have alignment : (t.extent id).alignment = (Footprint.fields (members.map t.room)).alignment :=
    congrArg Footprint.alignment whole
  obtain ⟨large, tight⟩ := Footprint.foldl_behind_le sound
  rw [← size] at large tight
  rw [← alignment] at tight
  constructor
  case fields => exact Footprint.map_fst_placed _ _ _
  case first =>
      obtain ⟨field, rest, rfl⟩ := List.exists_cons_of_ne_nil some
      exact ⟨field, Footprint.head?_placed _ _ _⟩
  case next => exact Footprint.isChain_placed pos 0
  case last =>
      intro p final
      have ends := Footprint.foldl_behind_eq t.room 0 members
      rw [final] at ends
      rw [ends] at large tight
      exact ⟨large, tight⟩
  case apart => exact Footprint.pairwise_placed pos 0
  case inside =>
      intro p member
      exact Nat.le_trans (Footprint.stop_le_of_mem_placed pos member).2 large
  case total =>
      rw [size]
      exact Footprint.sum_le_size sound
  case aligned =>
      intro base start n p member
      have field : p.1 ∈ members := by
        rw [← Footprint.map_fst_placed t.room 0 members]
        exact List.mem_map_of_mem member
      have divides : (t.extent p.1).alignment ∣ (t.extent id).alignment := by
        rw [alignment]
        exact Footprint.Sound.dvd_largest sounds (List.mem_map_of_mem field)
      have multiple : (t.extent id).alignment ∣ t.allocSize id := by
        rw [alignment, size]
        exact (Footprint.Sound.fields sounds).multiple
      have offset : (t.extent p.1).alignment ∣ p.2 := Footprint.dvd_of_mem_placed member
      have begins : (t.extent id).alignment ∣ base + n * t.allocSize id :=
        Nat.dvd_add start (Nat.dvd_mul_left_of_dvd multiple n)
      exact Nat.dvd_add (Nat.dvd_trans divides begins) offset

end Struct

/-- The room of an array is that of its elements one behind the other. -/
theorem room_array (ht : t.Ordered) {array element : TypeId} {length : UInt64}
    (h : t.shape? array = some (.array element length)) :
    t.room array = ⟨(t.room element).alignment, saturate (t.allocSize element * length.toNat)⟩ := by
  rw [room, allocSize, t.extent_eq ht h]
  rfl

end TypeTable

/-- Every alignment is a power of two.  A size that is exact is a multiple of it, and if it
is the size of a struct with fields, these have offsets that make it a sound layout: each is
the least that is aligned and behind the field before, so that none overlap, and they stay
aligned in arrays of the struct. -/
theorem struct_layout_sound {t : TypeTable} (ht : t.Built) (hv : t.ScalarVectors) {id : TypeId}
    (h : id < t.size) :
    (∃ k, (t.extent id).alignment = 2 ^ k) ∧
    ((t.footprint id).size < 2 ^ 64 - 1 →
      (t.extent id).alignment ∣ t.allocSize id ∧
      ∀ name members, t.shape? id = some (.struct name members) → members ≠ [] →
        (∃ placed, t.SoundLayout id members placed) ∧
        ∀ array length, t.shape? array = some (.array id length) →
          (t.extent array).alignment = (t.extent id).alignment ∧
          t.allocSize array = min (t.allocSize id * length.toNat) (2 ^ 64 - 1)) := by
  have ordered := ht.ordered
  have sound := TypeTable.sound_footprint ordered h
  refine ⟨?_, ?_⟩
  · rw [(agrees ordered hv h).alignment]
    exact sound.power
  · intro fits
    have multiple := sound.multiple
    rw [← TypeTable.room_eq ordered hv h fits] at multiple
    refine ⟨multiple, ?_⟩
    intro name members struct some
    refine ⟨⟨_, TypeTable.soundLayout_placed ordered hv fits struct some⟩, ?_⟩
    intro array length shape
    have room := TypeTable.room_array ordered shape
    exact ⟨congrArg Footprint.alignment room, congrArg Footprint.size room⟩

/-- A struct of a scalar, a wider one, a vector and an array; and two of these structs
behind a scalar. -/
def nestedStructs : List Request :=
  [.shape .float, .shape .double, .shape (.vector 0 3), .shape (.array 0 5),
   .shape (.struct (some "S") [0, 1, 2, 3]), .shape (.array 4 2), .shape (.struct none [0, 5])]

theorem struct_layout_sound_nested :
    TypeTable.allocSize (TypeTable.run {} nestedStructs) 4 = 64 ∧
    (∃ placed, (TypeTable.run {} nestedStructs).SoundLayout 4 [0, 1, 2, 3] placed) ∧
    TypeTable.allocSize (TypeTable.run {} nestedStructs) 6 = 144 ∧
    (∃ placed, (TypeTable.run {} nestedStructs).SoundLayout 6 [0, 5] placed) := by
  have built : (TypeTable.run {} nestedStructs).Built := ⟨nestedStructs, by decide +kernel, rfl⟩
  have scalars : (TypeTable.run {} nestedStructs).ScalarVectors := by decide +kernel
  obtain ⟨-, inner⟩ := @struct_layout_sound _ built scalars 4 (by decide +kernel)
  obtain ⟨-, outer⟩ := @struct_layout_sound _ built scalars 6 (by decide +kernel)
  obtain ⟨-, innerFields⟩ := inner (by decide +kernel)
  obtain ⟨-, outerFields⟩ := outer (by decide +kernel)
  refine ⟨by decide +kernel, ?_, by decide +kernel, ?_⟩
  · exact (innerFields (some "S") [0, 1, 2, 3] (by decide +kernel) (by decide)).1
  · exact (outerFields none [0, 5] (by decide +kernel) (by decide)).1

end ShaderReport
