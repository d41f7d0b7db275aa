/-
# `Indexed` — a byte string with every place at hand

Finding a place in a byte string means walking up to it.  A reader that jumps
around in a long payload, as offset tables and name tables ask for, would walk
again and again, so it lays the string out once: an array with one entry for
each place, the bytes from there on.  The entries share their cells, and each of
them is what `dropExactly?` would have walked to (`suffix?_index`).

Readers on an indexed string answer exactly as the plain ones do (`drop_index`,
`slice_index`, `readString_index`); with `length_index`, these equations are all that
proofs need of this file.
-/
import ShaderReport.Bytes.ZeroTerminated

namespace ShaderReport

/-- A byte string laid out by its suffixes, from the whole string to the empty one. -/
structure Indexed where
  suffixes : Array Bytes

namespace Indexed

/-- Adds the suffixes of a byte string, longest first. -/
def pushSuffixes : Bytes → Array Bytes → Array Bytes
  | [], laid => laid.push []
  | b@(_ :: rest), laid => pushSuffixes rest (laid.push b)

theorem size_pushSuffixes (b : Bytes) (laid : Array Bytes) :
    (pushSuffixes b laid).size = laid.size + b.length + 1 := by
  induction b generalizing laid with
  | nil => simp [pushSuffixes]
  | cons x b ih =>
    rw [pushSuffixes, ih, Array.size_push, List.length_cons]
    omega

theorem getElem?_pushSuffixes (b : Bytes) (laid : Array Bytes) (i : Nat) :
    (pushSuffixes b laid)[i]? =
      if i < laid.size then laid[i]? else b.dropExactly? (i - laid.size) := by
  induction b generalizing laid with
  | nil =>
    rw [pushSuffixes, Array.getElem?_push]
    rcases Nat.lt_trichotomy i laid.size with h | h | h
    · rw [if_neg (by omega), if_pos h]
    · subst h
      simp [Bytes.dropExactly?]
    · obtain ⟨k, hk⟩ : ∃ k, i - laid.size = k + 1 := ⟨i - laid.size - 1, by omega⟩
      rw [if_neg (by omega), if_neg (by omega), hk, Bytes.dropExactly?]
      exact Array.getElem?_eq_none (by omega)
  | cons x b ih =>
    rw [pushSuffixes, ih, Array.size_push, Array.getElem?_push]
    rcases Nat.lt_trichotomy i laid.size with h | h | h
    · rw [if_pos (by omega), if_neg (by omega), if_pos h]
    · subst h
      simp [Bytes.dropExactly?]
    · obtain ⟨k, hk⟩ : ∃ k, i - laid.size = k + 1 := ⟨i - laid.size - 1, by omega⟩
      rw [if_neg (by omega), if_neg (by omega), hk, Bytes.dropExactly?]
      congr 1
      omega

def length (b : Indexed) : Nat := b.suffixes.size - 1

/-- The bytes from a place on, if there is such a place (the end counts). -/
def suffix? (b : Indexed) (offset : Nat) : Option Bytes := b.suffixes[offset]?

end Indexed

def Bytes.index (b : Bytes) : Indexed := ⟨Indexed.pushSuffixes b #[]⟩

namespace Indexed

@[simp] theorem length_index (b : Bytes) : b.index.length = b.length := by
  simp [length, Bytes.index, size_pushSuffixes]

@[simp] theorem suffix?_index (b : Bytes) (offset : Nat) :
    b.index.suffix? offset = b.dropExactly? offset := by
  simp [suffix?, Bytes.index, getElem?_pushSuffixes]

/-- The bytes from a place on, none if the place lies past the end. -/
def drop (b : Indexed) (offset : Nat) : Bytes := (b.suffix? offset).getD []

@[simp] theorem drop_index (b : Bytes) (offset : Nat) :
    b.index.drop offset = List.drop offset b := by
  rw [drop, suffix?_index, Bytes.dropExactly?_eq]
  by_cases h : offset ≤ b.length
  · rw [if_pos h, Option.getD_some]
  · rw [if_neg h, Option.getD_none, List.drop_eq_nil_of_le (by omega)]

/-- The `length` bytes that start at `offset`. -/
def slice (b : Indexed) (offset length : Nat) : Except ReadError Bytes :=
  (checkRange offset length b.length).map fun _ => (b.drop offset).take length

/-- The string that starts at `offset` and ends before the first zero byte. -/
def readString (b : Indexed) (offset : Nat) : Except ReadError String :=
  match b.suffix? offset with
  | none => .error (.outOfBounds offset 1 b.length)
  | some rest => Bytes.stringAtFront offset rest

theorem slice_index (b : Bytes) (offset length : Nat) :
    b.index.slice offset length = b.slice offset length := by
  rw [slice, length_index, drop_index, Bytes.slice_eq_map]

theorem readString_index (b : Bytes) (offset : Nat) :
    b.index.readString offset = b.readString offset := by
  cases h : b.dropExactly? offset with
  | none => simp only [readString, Bytes.readString, suffix?_index, length_index, h]
  | some rest => simp only [readString, Bytes.readString, suffix?_index, h]

end Indexed

end ShaderReport
