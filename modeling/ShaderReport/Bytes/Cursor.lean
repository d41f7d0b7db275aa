/-
# `Cursor` — reading a byte string from front to back

A cursor is a byte string with a position in it.  A read of `k` bytes answers
with those bytes and a cursor `k` further on, or fails; the cursor it was asked
of is unchanged either way, so a failed read can be followed by another one.
-/
import ShaderReport.Bytes.LittleEndian
import ShaderReport.Bytes.ZeroTerminated

namespace ShaderReport

/-- A place in a byte string. -/
structure Cursor where
  bytes : Bytes
  /-- How many bytes lie before the cursor. -/
  position : Nat
deriving DecidableEq

namespace Cursor

def start (b : Bytes) : Cursor := ⟨b, 0⟩

/-- A cursor at `offset`, which may be the end but not lie past it. -/
def startAt (b : Bytes) (offset : Nat) : Except ReadError Cursor :=
  if b.length < offset then .error (.outOfBounds offset 0 b.length) else .ok ⟨b, offset⟩

/-- A second cursor into the same string. -/
def fork (c : Cursor) (offset : Nat) : Except ReadError Cursor := startAt c.bytes offset

def remaining (c : Cursor) : Nat := c.bytes.length - c.position

def read (c : Cursor) (length : Nat) : Except ReadError (Bytes × Cursor) :=
  (c.bytes.slice c.position length).map fun found =>
    (found, { c with position := c.position + length })

def skip (c : Cursor) (length : Nat) : Except ReadError Cursor :=
  (c.read length).map (·.2)

def u8 (c : Cursor) : Except ReadError (UInt8 × Cursor) :=
  (c.read 1).map fun (b, c) => (b.u8At 0, c)

def u16 (c : Cursor) : Except ReadError (UInt16 × Cursor) :=
  (c.read 2).map fun (b, c) => (b.u16At 0, c)

def u32 (c : Cursor) : Except ReadError (UInt32 × Cursor) :=
  (c.read 4).map fun (b, c) => (b.u32At 0, c)

def u64 (c : Cursor) : Except ReadError (UInt64 × Cursor) :=
  (c.read 8).map fun (b, c) => (b.u64At 0, c)

/-- The zero-terminated string at an absolute offset; the cursor stays where it is. -/
def stringAt (c : Cursor) (offset : Nat) : Except ReadError String := c.bytes.readString offset

end Cursor

end ShaderReport
