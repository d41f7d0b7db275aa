/-
# Scripts — whatever is asked of a cursor, in whatever order

A decoder asks a cursor one thing after another: for the next item (a byte, a word, a tag, so
many bytes, or so many bytes to be left out), for a name somewhere in the string, or to go
somewhere else.  A script is any list of such steps, with any lengths and offsets.

An item has a width, and is what is made of so many bytes; the readers of all items are `read`
followed by that (`ask_eq`).  So one statement about `read` says of all items when they are
found, what is found and why they are not (`Inside.read_eq`).  It needs the cursor to stand
inside its string.  Every step keeps that (`Inside.apply`), and so every script does
(`Inside.follow`).  A string is taken to be shorter than the number of 64-bit offsets (`fits`),
as every string in memory is.

A fork is a cursor of its own: what is read from one leaves the other where it stands.  A
script goes on with the fork; the cursor that was forked goes on with the same script less the
fork.

## Moving in place

With cursors as values, the cursor of a step that fails is of course the one it was asked of.
`InPlace` has one cursor that is overwritten, and whatever a failed step has done to it stays
done.  It looks at a range before it moves, and so a failed step has done nothing
(`inPlace_eq`).
-/
import Mathlib.Data.List.Basic
import ShaderReport.Proofs.Bytes.Cursors
import ShaderReport.Tag

namespace ShaderReport

/-! ## Items and steps -/

/-- What can be read from where a cursor stands. -/
inductive Item where
  | u8
  | u16
  | u32
  | u64
  | tag
  | bytes (length : Nat)
  /-- So many bytes, to be left out. -/
  | gap (length : Nat)
deriving DecidableEq

/-- One thing to ask of a cursor. -/
inductive ReadStep where
  | next (item : Item)
  /-- The name at an absolute offset. -/
  | name (offset : Nat)
  /-- Goes on with a cursor at an absolute offset. -/
  | fork (offset : Nat)
deriving DecidableEq

/-- What a step answers. -/
inductive Reading where
  | byte (x : UInt8)
  | word16 (w : UInt16)
  | word32 (w : UInt32)
  | word64 (w : UInt64)
  | tag (t : Tag)
  | bytes (b : Bytes)
  | name (s : String)
  /-- There is nothing to show. -/
  | nothing
deriving DecidableEq

namespace Item

/-- The number of bytes read. -/
def width : Item → Nat
  | .u8 => 1
  | .u16 => 2
  | .u32 | .tag => 4
  | .u64 => 8
  | .bytes length | .gap length => length

/-- The next item, and the cursor behind it. -/
def ask (c : Cursor) : Item → Except ReadError (Reading × Cursor)
  | .u8 => c.u8.map fun (x, c) => (.byte x, c)
  | .u16 => c.u16.map fun (w, c) => (.word16 w, c)
  | .u32 => c.u32.map fun (w, c) => (.word32 w, c)
  | .u64 => c.u64.map fun (w, c) => (.word64 w, c)
  | .tag => c.tag.map fun (t, c) => (.tag t, c)
  | .bytes length => (c.read length).map fun (b, c) => (.bytes b, c)
  | .gap length => (c.skip length).map fun c => (.nothing, c)

/-- What is made of the bytes read. -/
def ofBytes (b : Bytes) : Item → Reading
  | .u8 => .byte (b.u8At 0)
  | .u16 => .word16 (b.u16At 0)
  | .u32 => .word32 (b.u32At 0)
  | .u64 => .word64 (b.u64At 0)
  | .tag => .tag (Tag.ofBytes b)
  | .bytes _ => .bytes b
  | .gap _ => .nothing

/-- An answer that is the bytes read, or the number that they stand for. -/
inductive Shows (b : Bytes) : Item → Reading → Prop
  | u8 {x : UInt8} : x.toNat = b.toNatLE → Shows b .u8 (.byte x)
  | u16 {w : UInt16} : w.toNat = b.toNatLE → Shows b .u16 (.word16 w)
  | u32 {w : UInt32} : w.toNat = b.toNatLE → Shows b .u32 (.word32 w)
  | u64 {w : UInt64} : w.toNat = b.toNatLE → Shows b .u64 (.word64 w)
  | tag {t : Tag} : t.toBytes = b → Shows b .tag (.tag t)
  | bytes {length : Nat} : Shows b (.bytes length) (.bytes b)
  | gap {length : Nat} : Shows b (.gap length) .nothing

theorem ask_eq (c : Cursor) (item : Item) :
    item.ask c = (c.read item.width).map fun (found, c) => (item.ofBytes found, c) := by
  cases item with
  | bytes length => rfl
  | _ => exact (comp_map _ _ (c.read _)).symm

/-- What is made of as many bytes as the item has shows them. -/
theorem shows_ofBytes {b : Bytes} {item : Item} (h : b.length = item.width) :
    item.Shows b (item.ofBytes b) := by
  have small : b.toNatLE < Bytes.capacity item.width := h ▸ b.toNatLE_lt
  cases item with
  | u8 =>
      obtain ⟨x, rfl⟩ := List.length_eq_one_iff.mp h
      exact .u8 rfl
  | u16 =>
      have whole : b.take 2 = b := List.take_of_length_le (Nat.le_of_eq h)
      refine .u16 ?_
      rw [Bytes.u16At, List.drop_zero, whole]
      exact UInt16.toNat_ofNat_of_lt' small
  | u32 =>
      have whole : b.take 4 = b := List.take_of_length_le (Nat.le_of_eq h)
      refine .u32 ?_
      rw [Bytes.u32At, List.drop_zero, whole]
      exact UInt32.toNat_ofNat_of_lt' small
  | u64 =>
      have whole : b.take 8 = b := List.take_of_length_le (Nat.le_of_eq h)
      refine .u64 ?_
      rw [Bytes.u64At, List.drop_zero, whole]
      exact UInt64.toNat_ofNat_of_lt' small
  | tag =>
      obtain ⟨x0, x1, x2, x3, rfl⟩ := List.length_eq_four.mp h
      exact .tag rfl
  | bytes length => exact .bytes
  | gap length => exact .gap

end Item

namespace ReadStep

/-- What a cursor answers, and the cursor to go on with. -/
def ask (c : Cursor) : ReadStep → Except ReadError (Reading × Cursor)
  | .next item => item.ask c
  | .name offset => (c.stringAt offset).map fun s => (.name s, c)
  | .fork offset => (c.fork offset).map fun c => (.nothing, c)

/-- The answer to a step, and where the cursor stands then. -/
def apply (c : Cursor) (step : ReadStep) : Except ReadError Reading × Cursor :=
  match step.ask c with
  | .error cause => (.error cause, c)
  | .ok (answer, c) => (.ok answer, c)

end ReadStep

/-- Why a range that ends past the string cannot be read. -/
theorem Bytes.slice_of_lt {b : Bytes} {offset k : Nat} (beyond : b.length < offset + k) :
    b.slice offset k = .error (if addressLimit ≤ offset + k then .overflow offset k
      else .outOfBounds offset k b.length) := by
  rw [slice_eq, if_neg (Nat.not_le.mpr beyond)]
  split <;> rfl

namespace Cursor

/-- Where a cursor stands after a script. -/
def follow (c : Cursor) : List ReadStep → Cursor
  | [] => c
  | step :: rest => (step.apply c).2.follow rest

/-- A cursor fresh from the front of a string or from a place in it. -/
def Opens (b : Bytes) (c : Cursor) : Prop :=
  c = start b ∨ ∃ offset, startAt b offset = .ok c

/-- A cursor into `b` that does not stand past its end. -/
structure Inside (b : Bytes) (c : Cursor) : Prop where
  bytes : c.bytes = b
  position : c.position ≤ b.length

theorem startAt_of_le {b : Bytes} {offset : Nat} (h : offset ≤ b.length) :
    startAt b offset = .ok ⟨b, offset⟩ := if_neg (Nat.not_lt.mpr h)

theorem startAt_of_lt {b : Bytes} {offset : Nat} (h : b.length < offset) :
    startAt b offset = .error (.outOfBounds offset 0 b.length) := if_pos h

theorem Opens.inside {b : Bytes} {c : Cursor} (h : Opens b c) : c.Inside b := by
  rcases h with rfl | ⟨offset, opened⟩
  · exact ⟨rfl, Nat.zero_le _⟩
  · by_cases inside : offset ≤ b.length
    · rw [startAt_of_le inside] at opened
      cases opened
      exact ⟨rfl, inside⟩
    · rw [startAt_of_lt (Nat.not_le.mp inside)] at opened
      cases opened

/-! ## One step from inside -/

section Inside

variable {b : Bytes} {c : Cursor} (h : c.Inside b)
include h

theorem Inside.position_add_remaining : c.position + c.remaining = b.length := by
  have position := h.position
  rw [remaining, h.bytes]
  omega

/-- A read finds its bytes and moves behind them, or fails because fewer are left; a range
whose end is no 64-bit offset has an error of its own. -/
theorem Inside.read_eq (fits : b.length < addressLimit) (k : Nat) :
    c.read k =
      if k ≤ c.remaining then .ok (b.window c.position k, ⟨b, c.position + k⟩)
      else .error (if addressLimit ≤ c.position + k then .overflow c.position k
        else .outOfBounds c.position k b.length) := by
  obtain ⟨bytes, position⟩ := c
  obtain rfl : bytes = b := h.bytes
  have sum := h.position_add_remaining
  dsimp only at sum ⊢
  by_cases enough : k ≤ remaining ⟨bytes, position⟩
  · rw [if_pos enough]
    exact read_inside (by omega) (by omega)
  · rw [if_neg enough, read, Bytes.slice_of_lt (show bytes.length < position + k by omega)]
    rfl

theorem Inside.apply_of_enough (fits : b.length < addressLimit) {item : Item}
    (enough : item.width ≤ c.remaining) :
    ∃ answer, item.Shows (b.window c.position item.width) answer ∧
      (ReadStep.next item).apply c = (.ok answer, ⟨b, c.position + item.width⟩) := by
  have sum := h.position_add_remaining
  have length : (b.window c.position item.width).length = item.width :=
    Bytes.length_window (by omega)
  refine ⟨_, Item.shows_ofBytes length, ?_⟩
  rw [ReadStep.apply, ReadStep.ask, item.ask_eq, h.read_eq fits, if_pos enough]
  rfl

theorem Inside.apply_of_short (fits : b.length < addressLimit) {item : Item}
    (short : c.remaining < item.width) :
    (ReadStep.next item).apply c =
      (.error (if addressLimit ≤ c.position + item.width then .overflow c.position item.width
        else .outOfBounds c.position item.width b.length), c) := by
  rw [ReadStep.apply, ReadStep.ask, item.ask_eq, h.read_eq fits, if_neg (Nat.not_le.mpr short)]
  rfl

theorem Inside.apply_name (offset : Nat) :
    (ReadStep.name offset).apply c = ((b.readString offset).map .name, c) := by
  rw [ReadStep.apply, ReadStep.ask, stringAt, h.bytes]
  cases b.readString offset with
  | error cause => rfl
  | ok s => rfl

theorem Inside.fork_eq (offset : Nat) : c.fork offset = startAt b offset := by
  rw [fork, h.bytes]

theorem Inside.apply_fork_of_le {offset : Nat} (inside : offset ≤ b.length) :
    (ReadStep.fork offset).apply c = (.ok .nothing, ⟨b, offset⟩) := by
  rw [ReadStep.apply, ReadStep.ask, h.fork_eq, startAt_of_le inside]
  rfl

theorem Inside.apply_fork_of_lt {offset : Nat} (outside : b.length < offset) :
    (ReadStep.fork offset).apply c = (.error (.outOfBounds offset 0 b.length), c) := by
  rw [ReadStep.apply, ReadStep.ask, h.fork_eq, startAt_of_lt outside]
  rfl

/-- No step leaves the string. -/
theorem Inside.apply (fits : b.length < addressLimit) (step : ReadStep) :
    (step.apply c).2.Inside b := by
  cases step with
  | next item =>
      by_cases enough : item.width ≤ c.remaining
      · obtain ⟨answer, -, done⟩ := h.apply_of_enough fits enough
        have sum := h.position_add_remaining
        rw [done]
        exact ⟨rfl, by dsimp only; omega⟩
      · rw [h.apply_of_short fits (Nat.not_le.mp enough)]
        exact h
  | name offset =>
      rw [h.apply_name]
      exact h
  | fork offset =>
      by_cases inside : offset ≤ b.length
      · rw [h.apply_fork_of_le inside]
        exact ⟨rfl, inside⟩
      · rw [h.apply_fork_of_lt (Nat.not_le.mp inside)]
        exact h

end Inside

/-- No script leaves the string. -/
theorem Inside.follow {b : Bytes} {c : Cursor} (h : c.Inside b) (fits : b.length < addressLimit)
    (script : List ReadStep) : (c.follow script).Inside b := by
  induction script generalizing c with
  | nil => exact h
  | cons step rest ih => exact ih (h.apply fits step)

/-! ## The same with one cursor that is overwritten -/

/-- Reading from a cursor that moves.  What is done to it before a failure is kept. -/
abbrev InPlace := ExceptT ReadError (StateM Cursor)

/-- A step that looks at its range and then moves the cursor. -/
def InPlace.step : ReadStep → InPlace Reading
  | .next item => do
    let c ← get
    let found ← MonadExcept.ofExcept (c.bytes.slice c.position item.width)
    set { c with position := c.position + item.width }
    return item.ofBytes found
  | .name offset => do
    let c ← get
    let s ← MonadExcept.ofExcept (c.bytes.readString offset)
    return .name s
  | .fork offset => do
    let c ← get
    let forked ← MonadExcept.ofExcept (startAt c.bytes offset)
    set forked
    return .nothing

theorem InPlace.run_get {α : Type} (rest : Cursor → InPlace α) (c : Cursor) :
    (get >>= rest : InPlace α).run.run c = (rest c).run.run c := rfl

theorem inPlace_eq (c : Cursor) (step : ReadStep) :
    (InPlace.step step).run.run c = step.apply c := by
  cases step with
  | next item =>
      rw [InPlace.step, InPlace.run_get, ReadStep.apply, ReadStep.ask, item.ask_eq, read]
      cases c.bytes.slice c.position item.width with
      | error cause => rfl
      | ok found => rfl
  | name offset =>
      rw [InPlace.step, InPlace.run_get, ReadStep.apply, ReadStep.ask, stringAt]
      cases c.bytes.readString offset with
      | error cause => rfl
      | ok s => rfl
  | fork offset =>
      rw [InPlace.step, InPlace.run_get, ReadStep.apply, ReadStep.ask, fork]
      cases startAt c.bytes offset with
      | error cause => rfl
      | ok forked => rfl

/-- A step that fails has not moved the cursor. -/
theorem eq_of_inPlace_error {c left : Cursor} {step : ReadStep} {cause : ReadError}
    (failed : (InPlace.step step).run.run c = (.error cause, left)) : left = c := by
  rw [inPlace_eq, ReadStep.apply] at failed
  cases answered : step.ask c with
  | error _ =>
      rw [answered] at failed
      cases failed
      rfl
  | ok _ =>
      rw [answered] at failed
      cases failed

/-! ## Ranges -/

section Forked

variable {b : Bytes} {c : Cursor} (h : c.Inside b) {offset : Nat} (inside : offset ≤ b.length)
include h inside

theorem Inside.forked_read (k : Nat) :
    ((c.fork offset).bind (·.read k)).map (·.1) = b.slice offset k := by
  rw [h.fork_eq, startAt_of_le inside, Except.bind, read]
  cases b.slice offset k with
  | error cause => rfl
  | ok found => rfl

theorem Inside.forked_u32 : ((c.fork offset).bind (·.u32)).map (·.1) = b.readU32 offset := by
  rw [h.fork_eq, startAt_of_le inside, Except.bind, u32_eq]
  cases b.readU32 offset with
  | error cause => rfl
  | ok w => rfl

end Forked

/-- A range is found exactly if a fork finds it.  Past the end the fork itself fails, with an
error of its own. -/
theorem Inside.forked_toOption {b : Bytes} {c : Cursor} (h : c.Inside b) (offset k : Nat) :
    (((c.fork offset).bind (·.read k)).map (·.1)).toOption = (b.slice offset k).toOption := by
  by_cases inside : offset ≤ b.length
  · rw [h.forked_read inside]
  · have outside := Nat.not_le.mp inside
    rw [h.fork_eq, startAt_of_lt outside, Bytes.slice_of_lt (Nat.lt_add_right k outside)]
    rfl

/-! ## Every script -/

/-- What is known of a cursor into `b`, whatever it is asked next. -/
structure Steady (b : Bytes) (c : Cursor) : Prop where
  position_le : c.position ≤ b.length
  position_add_remaining : c.position + c.remaining = b.length
  /-- An item that is there is found and left behind. -/
  found : ∀ item : Item, item.width ≤ c.remaining →
    ∃ answer, item.Shows (b.window c.position item.width) answer ∧
      (ReadStep.next item).apply c = (.ok answer, ⟨b, c.position + item.width⟩)
  missing : ∀ item : Item, c.remaining < item.width →
    (ReadStep.next item).apply c =
      (.error (if addressLimit ≤ c.position + item.width then .overflow c.position item.width
        else .outOfBounds c.position item.width b.length), c)
  name : ∀ offset, (ReadStep.name offset).apply c = ((b.readString offset).map .name, c)
  forked : ∀ offset ≤ b.length, (ReadStep.fork offset).apply c = (.ok .nothing, ⟨b, offset⟩)
  astray : ∀ offset, b.length < offset →
    (ReadStep.fork offset).apply c = (.error (.outOfBounds offset 0 b.length), c)
  /-- A cursor that is overwritten answers the same and stands at the same place. -/
  inPlace : ∀ step, (InPlace.step step).run.run c = step.apply c
  unmoved : ∀ step cause left, (InPlace.step step).run.run c = (.error cause, left) → left = c

/-- The ranges of `b`, and what a fork of a cursor reads of them. -/
structure RangesAgree (b : Bytes) (c : Cursor) : Prop where
  within : ∀ offset k, offset + k ≤ b.length → b.slice offset k = .ok (b.window offset k)
  beyond : ∀ offset k, b.length < offset + k →
    b.slice offset k = .error (if addressLimit ≤ offset + k then .overflow offset k
      else .outOfBounds offset k b.length)
  forked : ∀ offset ≤ b.length, ∀ k,
    ((c.fork offset).bind (·.read k)).map (·.1) = b.slice offset k
  forked_toOption : ∀ offset k,
    (((c.fork offset).bind (·.read k)).map (·.1)).toOption = (b.slice offset k).toOption
  forked_u32 : ∀ offset ≤ b.length, ((c.fork offset).bind (·.u32)).map (·.1) = b.readU32 offset

/-- Wherever a cursor starts and whatever it has been asked: it stands inside its string, an
item is found exactly if its bytes are left, and nothing that fails moves the cursor; and a
range of the string is what a fork reads there. -/
theorem steady_after_every_script {b : Bytes} (fits : b.length < addressLimit) {c : Cursor}
    (opened : Opens b c) (script : List ReadStep) :
    Steady b (c.follow script) ∧ RangesAgree b (c.follow script) := by
  have inside := opened.inside.follow fits script
  constructor
  · exact
      { position_le := inside.position
        position_add_remaining := inside.position_add_remaining
        found := fun _ => inside.apply_of_enough fits
        missing := fun _ => inside.apply_of_short fits
        name := inside.apply_name
        forked := fun _ => inside.apply_fork_of_le
        astray := fun _ => inside.apply_fork_of_lt
        inPlace := inPlace_eq _
        unmoved := fun _ _ _ => eq_of_inPlace_error }
  · exact
      { within := fun _ _ within => Bytes.slice_eq_ok within (by omega)
        beyond := fun _ _ => Bytes.slice_of_lt
        forked := fun _ => inside.forked_read
        forked_toOption := inside.forked_toOption
        forked_u32 := fun _ => inside.forked_u32 }

/-- A name of one letter and three more bytes. -/
def crossed : Bytes := [0x41, 0, 0x34, 0x12, 0xFF]

/-- Two steps that fail, the first because its range has no 64-bit end, and a way back to the
middle of what was read. -/
def crossing : List ReadStep :=
  [.next .u16, .next (.bytes (addressLimit - 2)), .fork 9, .name 0, .fork 1, .next .u32]

/-- The string is read to its end, and there is not one byte more. -/
theorem steady_after_every_script_crossing :
    Opens crossed (start crossed) ∧ (start crossed).follow crossing = ⟨crossed, 5⟩ ∧
    (ReadStep.next .u8).apply ((start crossed).follow crossing) =
      (.error (.outOfBounds 5 1 5), ⟨crossed, 5⟩) := by
  have opened : Opens crossed (start crossed) := .inl rfl
  have stop : (start crossed).follow crossing = ⟨crossed, 5⟩ := by decide +kernel
  obtain ⟨steady, -⟩ := steady_after_every_script (by decide) opened crossing
  have answer := steady.missing .u8
  rw [stop] at answer ⊢
  exact ⟨opened, rfl, answer (by decide)⟩

end Cursor

end ShaderReport
