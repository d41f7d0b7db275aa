/-
# `Bytes` — byte strings and checked ranges

Everything this library decodes is a byte string held as a list.  The one
access every decoder rests on is `Bytes.slice`: a range either lies inside the
string, or ends past it, or does not even have an end that fits in 64 bits.
The three cases are told apart by `slice_eq`, and nothing below needs to look
inside `slice` again.
-/

namespace ShaderReport

/-- A byte string, first byte first. -/
abbrev Bytes := List UInt8

/-- Offsets and lengths are 64-bit words: a range must end below two to the 64th. -/
def addressLimit : Nat := 18446744073709551616

/-- Why a read at a given offset has no answer. -/
inductive ReadError where
  /-- The range starts or ends past the last byte. -/
  | outOfBounds (offset length available : Nat)
  /-- The end of the range is not a 64-bit offset. -/
  | overflow (offset length : Nat)
  /-- No zero byte ends the string. -/
  | unterminated (offset : Nat)
  /-- The bytes before the zero byte are not UTF-8. -/
  | invalidUtf8 (offset : Nat)
deriving DecidableEq

def ReadError.message : ReadError → String
  | .outOfBounds offset length available =>
    s!"need {length} bytes at offset {offset}, but buffer length is {available}"
  | .overflow offset length => s!"range at offset {offset} with length {length} overflows"
  | .unterminated offset => s!"string at offset {offset} is missing a NUL terminator"
  | .invalidUtf8 offset => s!"string at offset {offset} is not valid UTF-8"

/-- Whether a range lies inside a string of `available` bytes. -/
def checkRange (offset length available : Nat) : Except ReadError Unit :=
  if addressLimit ≤ offset + length then .error (.overflow offset length)
  else if offset + length ≤ available then .ok ()
  else .error (.outOfBounds offset length available)

namespace Bytes

/-- The bytes from position `n` on, if there is such a position (the end counts). -/
def dropExactly? : Nat → Bytes → Option Bytes
  | 0, b => some b
  | _ + 1, [] => none
  | n + 1, _ :: b => dropExactly? n b

theorem dropExactly?_eq (n : Nat) (b : Bytes) :
    b.dropExactly? n = if n ≤ b.length then some (b.drop n) else none := by
  induction n generalizing b with
  | zero => simp [dropExactly?]
  | succ n ih =>
    cases b with
    | nil => simp [dropExactly?]
    | cons x b => simp [dropExactly?, ih]

/-- The `length` bytes that start at `offset`.  The range is measured against the
bytes it covers, so a read near the front of a long string stays cheap. -/
def slice (b : Bytes) (offset length : Nat) : Except ReadError Bytes :=
  if addressLimit ≤ offset + length then .error (.overflow offset length)
  else
    match b.dropExactly? offset with
    | none => .error (.outOfBounds offset length b.length)
    | some rest =>
      let found := rest.take length
      if found.length = length then .ok found
      else .error (.outOfBounds offset length b.length)

/-- The three outcomes of a ranged read. -/
theorem slice_eq (b : Bytes) (offset length : Nat) :
    b.slice offset length =
      if addressLimit ≤ offset + length then .error (.overflow offset length)
      else if offset + length ≤ b.length then .ok ((b.drop offset).take length)
      else .error (.outOfBounds offset length b.length) := by
  unfold slice
  split
  · rfl
  · rw [dropExactly?_eq]
    by_cases h : offset ≤ b.length
    · have hl : ((b.drop offset).take length).length = length ↔
          offset + length ≤ b.length := by
        rw [List.length_take, List.length_drop]; omega
      simp only [h, if_true, hl]
    · have : ¬ offset + length ≤ b.length := by omega
      simp [h, this]

/-- A ranged read is a check of the range and then the bytes in it. -/
theorem slice_eq_map (b : Bytes) (offset length : Nat) :
    b.slice offset length =
      (checkRange offset length b.length).map fun _ => (b.drop offset).take length := by
  rw [slice_eq, checkRange]
  split
  · rfl
  · split <;> rfl

end Bytes

end ShaderReport
