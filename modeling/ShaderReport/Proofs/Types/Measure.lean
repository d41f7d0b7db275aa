/-
# Measuring a type by asking its components

`Extent` computes everything that is to be known of a type's room at once, from the
oldest type on.  `measure?` asks for one number at a time, when it is needed, and the
answer may need other numbers first, of the components or of the type itself: the
alignment of a vector needs its store size, the store size of a struct its
allocation size, and that the alignment of the struct.

Two things can go wrong with such a recursion, and each is visible in it.

* It need not come to an end.  `depth` says how many questions may wait for one
  another, and there is no answer past it.
* Most sums and products are held at the largest size, but not all.  `fit` decides
  what becomes of a result that is not: `some` lets every number pass, `word?` only
  those of 64 bits.

In a table whose components stand before the types made from them, neither does.  At
most four questions about a type wait for one another before an older type is asked, so
the recursion ends (`measure?_isSome`); and if the results in `Unsaturated` pass, every
answer is the one in `Extent` (`measure?_eq`).
-/
import Mathlib.Data.List.Basic
import ShaderReport.Proofs.Types.Built
import ShaderReport.Types.Extent

namespace ShaderReport

/-! ## The recursion -/

/-- What is asked of a type. -/
inductive Aspect where
  | alignment
  | storeSize
  /-- Bits of one lane, of a type that is the element of a vector. -/
  | laneBits
  | allocSize
deriving DecidableEq

def Extent.get (e : Extent) : Aspect → Nat
  | .alignment => e.alignment
  | .storeSize => e.storeSize
  | .laneBits => e.laneBits
  | .allocSize => e.allocSize

/-- A number, if it has at most 64 bits. -/
def word? (n : Nat) : Option Nat := if n ≤ maxSize then some n else none

namespace Measure

variable (fit : Nat → Option Nat) (ask : Aspect → TypeId → Option Nat) (id : TypeId)

def alignment : Shape → Option Nat
  | .void | .label | .metadata | .function .. => some 1
  | .integer bits => some (if 32 < bits.toNat then 8 else 4)
  | .half | .float | .pointer .. => some 4
  | .double => some 8
  | .vector .. => (ask .storeSize id).bind fun size => fit (leastPowerOfTwo size)
  | .array element _ => ask .alignment element
  | .struct _ fields => (fields.mapM (ask .alignment)).map fun found => found.foldl max 1

def storeSize : Shape → Option Nat
  | .void | .label | .metadata | .function .. => some 0
  | .integer bits => some (ceilDiv bits.toNat 8)
  | .half => some 2
  | .float | .pointer .. => some 4
  | .double => some 8
  | .vector element length =>
    (ask .laneBits element).bind fun bits => (fit (bits * length.toNat)).map (ceilDiv · 8)
  | .array .. | .struct .. => ask .allocSize id

def laneBits : Shape → Option Nat
  | .integer bits => some bits.toNat
  | .half => some 16
  | .float | .pointer .. => some 32
  | .double => some 64
  | _ => (ask .storeSize id).bind fun size => fit (size * 8)

/-- The end of a field that is placed at the first aligned address from `offset` on. -/
def fieldEnd (offset : Nat) (field : TypeId) : Option Nat :=
  (ask .alignment field).bind fun alignment =>
    (ask .allocSize field).map fun size => saturate (alignTo offset alignment + size)

def allocSize : Shape → Option Nat
  | .array element length =>
    (ask .allocSize element).map fun size => saturate (size * length.toNat)
  | .struct _ fields =>
    (fields.foldlM (fieldEnd ask) 0).bind fun stop => (ask .alignment id).map (alignTo stop)
  | _ => (ask .storeSize id).bind fun size => (ask .alignment id).map (alignTo size)

/-- One question about a type of a given shape. -/
def answer (s : Shape) : Aspect → Option Nat
  | .alignment => alignment fit ask id s
  | .storeSize => storeSize fit ask id s
  | .laneBits => laneBits fit ask id s
  | .allocSize => allocSize ask id s

end Measure

/-- One number of a type's room, with at most `depth` questions waiting for one another. -/
def TypeTable.measure? (t : TypeTable) (fit : Nat → Option Nat) :
    (depth : Nat) → Aspect → TypeId → Option Nat
  | 0, _, _ => none
  | depth + 1, aspect, id =>
    (t.shape? id).bind fun s => Measure.answer fit (t.measure? fit depth) id s aspect

/-! ## The equation of the pass -/

theorem Extent.ofShape_congr {s : Shape} {below below' : TypeId → Extent}
    (agree : ∀ c ∈ s.components, below c = below' c) :
    ofShape below s = ofShape below' s := by
  cases s with
  | vector element length =>
      simp only [ofShape, agree element List.mem_cons_self]
  | array element length =>
      simp only [ofShape, agree element List.mem_cons_self]
  | struct name fields =>
      have same : fields.map below = fields.map below' := List.map_congr_left agree
      rw [ofShape, ofShape, same]
  | _ => rfl

/-- What is not made of elements or fields takes its store size, up to the alignment. -/
theorem Extent.allocSize_ofShape (below : TypeId → Extent) {s : Shape}
    (h : (s.isArray || s.isStruct) = false) :
    (ofShape below s).allocSize =
      alignTo (ofShape below s).storeSize (ofShape below s).alignment := by
  cases s with
  | array element length => cases h
  | struct name fields => cases h
  | integer _ | half | float | double | pointer _ _ => simp only [ofShape, scalar]
  | vector element length => simp only [ofShape, vector]
  | _ => rfl

theorem TypeTable.extent_eq {t : TypeTable} (ht : t.Ordered) {id : TypeId} {s : Shape}
    (h : t.shape? id = some s) : t.extent id = Extent.ofShape t.extent s :=
  fold_eq_of_components ht h Extent.ofShape_congr

/-! ## One question -/

/-- A type that is the element of a vector. -/
def TypeTable.Lane (t : TypeTable) (id : TypeId) : Prop :=
  ∃ vector length, t.shape? vector = some (.vector id length)

/-- The results on the way to the sizes of a table that are not held at the largest size. -/
inductive TypeTable.Unsaturated (t : TypeTable) : Nat → Prop
  | bits {id element : TypeId} {length : UInt32} :
      t.shape? id = some (.vector element length) →
      Unsaturated t ((t.extent element).laneBits * length.toNat)
  | power {id element : TypeId} {length : UInt32} :
      t.shape? id = some (.vector element length) →
      Unsaturated t (leastPowerOfTwo (t.extent id).storeSize)
  | lane {id : TypeId} {s : Shape} : t.Lane id → t.shape? id = some s → s.isScalar = false →
      Unsaturated t ((t.extent id).storeSize * 8)

theorem mapM_congr {α β : Type} {f g : α → Option β} {l : List α} (h : ∀ a ∈ l, f a = g a) :
    l.mapM f = l.mapM g := by
  induction l with
  | nil => rfl
  | cons a l ih =>
      obtain ⟨head, tail⟩ := List.forall_mem_cons.mp h
      rw [List.mapM_cons, List.mapM_cons, head, ih tail]

theorem foldlM_congr {α β : Type} {f g : β → α → Option β} {l : List α}
    (h : ∀ a ∈ l, ∀ b, f b a = g b a) (b : β) : l.foldlM f b = l.foldlM g b := by
  induction l generalizing b with
  | nil => rfl
  | cons a l ih =>
      obtain ⟨head, tail⟩ := List.forall_mem_cons.mp h
      rw [List.foldlM_cons, List.foldlM_cons, head]
      exact bind_congr (ih tail)

/-- Asking every member of a list, if every member has an answer. -/
theorem mapM_of_some {α β : Type} {f : α → Option β} {g : α → β} {l : List α}
    (h : ∀ a ∈ l, f a = some (g a)) : l.mapM f = some (l.map g) :=
  (mapM_congr h).trans List.mapM_pure

theorem foldlM_of_some {α β : Type} {f : β → α → Option β} {g : β → α → β} {l : List α}
    (h : ∀ a ∈ l, ∀ b, f b a = some (g b a)) (b : β) : l.foldlM f b = some (l.foldl g b) :=
  (foldlM_congr h b).trans List.foldlM_pure

namespace Measure

section Answer

variable {t : TypeTable} {fit : Nat → Option Nat} {ask : Aspect → TypeId → Option Nat}
  {id : TypeId} {s : Shape} (room : t.extent id = Extent.ofShape t.extent s)
  (fits : ∀ n, t.Unsaturated n → fit n = some n)
include room

section

variable (h : t.shape? id = some s)
include fits h

theorem alignment_eq (below : ∀ c ∈ s.components, ask .alignment c = some (t.extent c).alignment)
    (here : s.isVector → ask .storeSize id = some (t.extent id).storeSize) :
    alignment fit ask id s = some (t.extent id).alignment := by
  cases s with
  | vector element length =>
      have result : (t.extent id).alignment = leastPowerOfTwo (t.extent id).storeSize := by
        rw [room]
        rfl
      rw [alignment, here rfl, Option.bind_some, fits _ (.power h), result]
  | array element length =>
      rw [alignment, below element List.mem_cons_self, room]
      rfl
  | struct name fields =>
      have found : fields.mapM (ask .alignment) =
          some (fields.map fun field => (t.extent field).alignment) := mapM_of_some below
      rw [alignment, found, room]
      simp only [Extent.ofShape, Extent.struct, Extent.aggregate, Extent.largestAlignment,
        Option.map_some, List.foldl_map]
  | _ =>
      rw [room]
      rfl

theorem storeSize_eq
    (below : ∀ e ∈ s.vectorElement?, ask .laneBits e = some (t.extent e).laneBits)
    (here : (s.isArray || s.isStruct) → ask .allocSize id = some (t.extent id).allocSize) :
    storeSize fit ask id s = some (t.extent id).storeSize := by
  cases s with
  | vector element length =>
      rw [storeSize, below element rfl, Option.bind_some, fits _ (.bits h), room]
      rfl
  | array element length =>
      rw [storeSize, here rfl, room]
      rfl
  | struct name fields =>
      rw [storeSize, here rfl, room]
      rfl
  | _ =>
      rw [room]
      rfl

theorem laneBits_eq (lane : t.Lane id)
    (here : s.isScalar = false → ask .storeSize id = some (t.extent id).storeSize) :
    laneBits fit ask id s = some (t.extent id).laneBits := by
  cases hs : s.isScalar with
  | true =>
      cases s with
      | integer _ | half | float | double | pointer _ _ =>
          rw [room]
          rfl
      | _ => cases hs
  | false =>
      have result : laneBits fit ask id s = (ask .storeSize id).bind fun size => fit (size * 8) := by
        cases s with
        | integer _ | half | float | double | pointer _ _ => cases hs
        | _ => rfl
      have bits : (t.extent id).laneBits = (t.extent id).storeSize * 8 := by
        rw [room]
        cases s with
        | integer _ | half | float | double | pointer _ _ => cases hs
        | _ => rfl
      rw [result, here hs, Option.bind_some, fits _ (.lane lane h hs), bits]

end

theorem allocSize_eq
    (below : ∀ c ∈ s.components, ask .alignment c = some (t.extent c).alignment ∧
      ask .allocSize c = some (t.extent c).allocSize)
    (aligned : s.isArray = false → ask .alignment id = some (t.extent id).alignment)
    (stored : (s.isArray || s.isStruct) = false →
      ask .storeSize id = some (t.extent id).storeSize) :
    allocSize ask id s = some (t.extent id).allocSize := by
  cases s with
  | array element length =>
      rw [allocSize, (below element List.mem_cons_self).2, room]
      rfl
  | struct name fields =>
      have ends : fields.foldlM (fieldEnd ask) 0 =
          some (fields.foldl (fun offset field => Extent.fieldEnd offset (t.extent field)) 0) := by
        refine foldlM_of_some ?_ 0
        intro field member offset
        obtain ⟨alignment, size⟩ := below field member
        rw [fieldEnd, alignment, size]
        rfl
      rw [allocSize, ends, aligned rfl, room]
      simp only [Extent.ofShape, Extent.struct, Extent.aggregate, Option.bind_some,
        Option.map_some, List.foldl_map]
  | _ =>
      simp only [allocSize, stored rfl, aligned rfl, Option.bind_some, Option.map_some]
      rw [room, Extent.allocSize_ofShape t.extent rfl]

end Answer

/-- How many questions about a type can wait for one another, the given one being the
first. -/
def rank (s : Shape) (aspect : Aspect) : Nat :=
  if s.isArray || s.isStruct then
    match aspect with
    | .alignment => 0
    | .allocSize => 1
    | .storeSize => 2
    | .laneBits => 3
  else
    match aspect with
    | .storeSize => 0
    | .alignment | .laneBits => 1
    | .allocSize => 2

/-- How many questions in all can wait for one another: four for every older type. -/
def height (id : Nat) (s : Shape) (aspect : Aspect) : Nat := 4 * id + rank s aspect

theorem rank_le (s : Shape) (aspect : Aspect) : rank s aspect ≤ 3 := by
  unfold rank
  cases aspect <;> split <;> decide

theorem height_le (id : Nat) (s : Shape) (aspect : Aspect) : height id s aspect ≤ 4 * id + 3 :=
  Nat.add_le_add_left (rank_le s aspect) _

theorem height_lt_height {c id : Nat} (h : c < id) (s s' : Shape) (a a' : Aspect) :
    height c s a < height id s' a' := by
  have := rank_le s a
  unfold height
  omega

/-- One question is answered rightly if those it waits for are: the ones about
components, and those of a smaller rank about the type itself. -/
theorem answer_eq {t : TypeTable} (ht : t.Ordered) {fit : Nat → Option Nat}
    (fits : ∀ n, t.Unsaturated n → fit n = some n) {ask : Aspect → TypeId → Option Nat}
    {id : TypeId} {s : Shape} (h : t.shape? id = some s) {aspect : Aspect}
    (lane : aspect = .laneBits → t.Lane id)
    (below : ∀ c ∈ s.components, ∀ a, (a = .laneBits → t.Lane c) →
      ask a c = some ((t.extent c).get a))
    (here : ∀ a, rank s a < rank s aspect → a ≠ .laneBits →
      ask a id = some ((t.extent id).get a)) :
    answer fit ask id s aspect = some ((t.extent id).get aspect) := by
  have room := t.extent_eq ht h
  cases aspect with
  | alignment =>
      refine alignment_eq room fits h ?_ ?_
      · intro c hc
        exact below c hc .alignment nofun
      · intro hv
        refine here .storeSize ?_ nofun
        cases s with
        | vector _ _ => exact Nat.zero_lt_one
        | _ => cases hv
  | storeSize =>
      refine storeSize_eq room fits h ?_ ?_
      · intro e he
        cases s with
        | vector element length =>
            obtain rfl : element = e := Option.some.inj he
            exact below element List.mem_cons_self .laneBits fun _ => ⟨id, length, h⟩
        | _ => cases he
      · intro ha
        refine here .allocSize ?_ nofun
        simp [rank, ha]
  | laneBits =>
      refine laneBits_eq room fits h (lane rfl) ?_
      intro hs
      refine here .storeSize ?_ nofun
      unfold rank
      split
      · decide
      · decide
  | allocSize =>
      refine allocSize_eq room ?_ ?_ ?_
      · intro c hc
        exact ⟨below c hc .alignment nofun,
          below c hc .allocSize nofun⟩
      · intro _
        refine here .alignment ?_ nofun
        unfold rank
        split
        · decide
        · decide
      · intro ha
        refine here .storeSize ?_ nofun
        simp [rank, ha]

section Any

variable {ask ask' : Aspect → TypeId → Option Nat} {id : TypeId} {s : Shape} {aspect : Aspect}

/-- An answer depends on nothing but the questions it waits for. -/
theorem answer_congr (fit : Nat → Option Nat)
    (below : ∀ c ∈ s.components, ∀ a, ask a c = ask' a c)
    (here : ∀ a, rank s a < rank s aspect → ask a id = ask' a id) :
    answer fit ask id s aspect = answer fit ask' id s aspect := by
  cases aspect with
  | alignment =>
      cases s with
      | vector element length =>
          have stored := here .storeSize Nat.zero_lt_one
          simp only [answer, alignment, stored]
      | array element length => exact below element List.mem_cons_self .alignment
      | struct name fields =>
          have alignments : fields.mapM (ask .alignment) = fields.mapM (ask' .alignment) :=
            mapM_congr fun field member => below field member .alignment
          simp only [answer, alignment, alignments]
      | _ => rfl
  | storeSize =>
      cases s with
      | vector element length =>
          have bits := below element List.mem_cons_self .laneBits
          simp only [answer, storeSize, bits]
      | array element length => exact here .allocSize Nat.one_lt_two
      | struct name fields => exact here .allocSize Nat.one_lt_two
      | _ => rfl
  | laneBits =>
      cases s with
      | integer _ | half | float | double | pointer _ _ => rfl
      | array _ _ | struct _ _ =>
          have stored := here .storeSize (Nat.lt_succ_self 2)
          exact congrArg (·.bind fun size => fit (size * 8)) stored
      | _ =>
          have stored := here .storeSize Nat.zero_lt_one
          exact congrArg (·.bind fun size => fit (size * 8)) stored
  | allocSize =>
      cases s with
      | array element length =>
          have size := below element List.mem_cons_self .allocSize
          simp only [answer, allocSize, size]
      | struct name fields =>
          have ends : fields.foldlM (fieldEnd ask) 0 = fields.foldlM (fieldEnd ask') 0 := by
            refine foldlM_congr ?_ 0
            intro field member offset
            simp only [fieldEnd, below field member]
          have aligned := here .alignment Nat.zero_lt_one
          simp only [answer, allocSize, ends, aligned]
      | _ =>
          have stored := here .storeSize Nat.zero_lt_two
          have aligned := here .alignment Nat.one_lt_two
          simp only [answer, allocSize, stored, aligned]

/-- There is an answer if all questions have one and all results pass, changed or not. -/
theorem answer_isSome_of_total (wrap : Nat → Nat) (look : Aspect → TypeId → Nat) :
    (answer (fun n => some (wrap n)) (fun a c => some (look a c)) id s aspect).isSome := by
  cases s with
  | struct name fields =>
      have alignments : fields.mapM (fun c => some (look .alignment c)) =
          some (fields.map (look .alignment)) := mapM_of_some fun _ _ => rfl
      have ends : fields.foldlM (fieldEnd fun a c => some (look a c)) 0 =
          some (fields.foldl (fun offset c =>
            saturate (alignTo offset (look .alignment c) + look .allocSize c)) 0) :=
        foldlM_of_some (fun _ _ _ => rfl) 0
      cases aspect with
      | alignment => simp only [answer, alignment, alignments, Option.map_some, Option.isSome_some]
      | allocSize => simp only [answer, allocSize, ends, Option.bind_some, Option.map_some,
          Option.isSome_some]
      | storeSize => rfl
      | laneBits => rfl
  | _ => cases aspect <;> rfl

theorem answer_isSome (wrap : Nat → Nat) (below : ∀ c ∈ s.components, ∀ a, (ask a c).isSome)
    (here : ∀ a, rank s a < rank s aspect → (ask a id).isSome) :
    (answer (fun n => some (wrap n)) ask id s aspect).isSome := by
  have given : ∀ {o : Option Nat}, o.isSome → o = some (o.getD 0) := by
    intro o h
    obtain ⟨n, rfl⟩ := Option.isSome_iff_exists.mp h
    rfl
  have known : answer (fun n => some (wrap n)) ask id s aspect =
      answer (fun n => some (wrap n)) (fun a c => some ((ask a c).getD 0)) id s aspect :=
    answer_congr _ (fun c hc a => given (below c hc a)) fun a lower => given (here a lower)
  rw [known]
  exact answer_isSome_of_total wrap _

end Any

end Measure

/-! ## Whole recursions -/

namespace TypeTable

variable {t : TypeTable} {fit : Nat → Option Nat}

/-- What holds of an answer if it holds of those it waits for, holds of every answer that
may wait for enough others. -/
theorem measure?_of_answer (ht : t.Ordered) {P : Aspect → TypeId → Option Nat → Prop}
    (step : ∀ ask id s aspect, t.shape? id = some s → (∀ c ∈ s.components, ∀ a, P a c (ask a c)) →
      (∀ a, Measure.rank s a < Measure.rank s aspect → P a id (ask a id)) →
      P aspect id (Measure.answer fit ask id s aspect))
    {aspect : Aspect} {id : TypeId} {s : Shape} (h : t.shape? id = some s) {depth : Nat}
    (deep : Measure.height id s aspect < depth) :
    P aspect id (t.measure? fit depth aspect id) := by
  induction depth generalizing aspect id s with
  | zero => exact absurd deep (Nat.not_lt_zero _)
  | succ depth ih =>
      have deep' := Nat.le_of_lt_succ deep
      rw [measure?, h, Option.bind_some]
      refine step _ id s aspect h ?_ ?_
      · intro c hc a
        have older : c < id := ht id s h c hc
        obtain ⟨shape, hs⟩ := exists_shape? (Nat.lt_trans older (lt_size_of_shape? h))
        exact ih hs (Nat.lt_of_lt_of_le (Measure.height_lt_height older shape s a aspect) deep')
      · intro a lower
        exact ih h (Nat.lt_of_lt_of_le (Nat.add_lt_add_left lower _) deep')

section Deep

variable (ht : t.Ordered) {id depth : Nat} (h : id < t.size) (deep : 4 * id + 3 < depth)
include ht h deep

/-- The recursion ends, and its answers are those of the pass, as soon as the results
that are not held at the largest size pass. -/
theorem measure?_eq (fits : ∀ n, t.Unsaturated n → fit n = some n) {aspect : Aspect}
    (ha : aspect ≠ .laneBits) :
    t.measure? fit depth aspect id = some ((t.extent id).get aspect) := by
  obtain ⟨s, hs⟩ := exists_shape? h
  let P (a : Aspect) (c : TypeId) (found : Option Nat) : Prop :=
    (a = .laneBits → t.Lane c) → found = some ((t.extent c).get a)
  suffices answered : P aspect id (t.measure? fit depth aspect id) from
    answered fun e => absurd e ha
  refine measure?_of_answer ht ?_ hs (Nat.lt_of_le_of_lt (Measure.height_le id s aspect) deep)
  intro ask id s aspect hs below here lane
  refine Measure.answer_eq ht fits hs lane below ?_
  intro a lower other
  exact here a lower fun e => absurd e other

/-- The recursion ends whatever becomes of the results that are not held at the largest
size, if something does. -/
theorem measure?_isSome (wrap : Nat → Nat) (aspect : Aspect) :
    (t.measure? (fun n => some (wrap n)) depth aspect id).isSome := by
  obtain ⟨s, hs⟩ := exists_shape? h
  let P (_ : Aspect) (_ : TypeId) (found : Option Nat) : Prop := found.isSome
  suffices answered : P aspect id (t.measure? (fun n => some (wrap n)) depth aspect id) from
    answered
  refine measure?_of_answer ht ?_ hs (Nat.lt_of_le_of_lt (Measure.height_le id s aspect) deep)
  intro ask id s aspect _ below here
  exact Measure.answer_isSome wrap below here

end Deep

end TypeTable

end ShaderReport
