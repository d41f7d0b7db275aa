/-
# `ZeroTerminated` — strings stored in a byte string

Names are stored as UTF-8 and end at the first zero byte.
-/
import ShaderReport.Bytes.Basic

namespace ShaderReport.Bytes

/-- The string that ends before the first zero byte of `rest`, the bytes that stand at
`offset` in the string under reading. -/
def stringAtFront (offset : Nat) (rest : Bytes) : Except ReadError String :=
  if rest.contains 0 then
    match String.fromUTF8? (rest.takeWhile (· ≠ 0)).toByteArray with
    | some s => .ok s
    | none => .error (.invalidUtf8 offset)
  else .error (.unterminated offset)

/-- The string that starts at `offset` and ends before the first zero byte.  An
offset past the end is reported as a missing byte; one exactly at the end finds
no terminator. -/
def readString (b : Bytes) (offset : Nat) : Except ReadError String :=
  match b.dropExactly? offset with
  | none => .error (.outOfBounds offset 1 b.length)
  | some rest => stringAtFront offset rest

/-- The stored form of a string: its UTF-8 bytes and the zero byte that ends it. -/
def ofString (s : String) : Bytes := s.toUTF8.data.toList ++ [0]

end ShaderReport.Bytes
