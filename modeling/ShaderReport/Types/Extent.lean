/-
# `Extent` — sizes and alignments

The data layout gives every scalar narrower than 32 bits a slot of four bytes
and every 64-bit scalar one of eight; pointers have 32 bits; a vector is as
large as its lanes, and aligned to that size rounded up to a power of two;
fields of a struct follow one another at their alignments.

Sizes are 64-bit words: a size that would not fit is held at the largest one.
-/
import ShaderReport.Types.Table

namespace ShaderReport

/-- The layout in the form in which every module states it. -/
def dataLayoutText : String :=
  "e-m:e-p:32:32-i1:32-i8:32-i16:32-i32:32-i64:64-f16:32-f32:32-f64:64-n8:16:32:64"

/-- The largest size, one below two to the 64th. -/
def maxSize : Nat := 18446744073709551615

/-- A size held at the largest one. -/
def saturate (n : Nat) : Nat := min n maxSize

/-- Number of groups of `d` needed for `n` things. -/
def ceilDiv (n d : Nat) : Nat := (n + d - 1) / d

/-- The first multiple of `alignment` that is not below `n`. -/
def alignTo (n alignment : Nat) : Nat :=
  if alignment ≤ 1 then n else saturate (ceilDiv n alignment * alignment)

/-- The least power of two that is not below `n`. -/
def leastPowerOfTwo (n : Nat) : Nat := if n ≤ 1 then 1 else 1 <<< ((n - 1).log2 + 1)

/-- The room a type takes, in bytes. -/
structure Extent where
  /-- Addresses of the type are multiples of this. -/
  alignment : Nat
  /-- Bits of one lane, when the type is the element of a vector. -/
  laneBits : Nat
  /-- Bytes a store writes. -/
  storeSize : Nat
  /-- Bytes from one element of an array to the next. -/
  allocSize : Nat
deriving DecidableEq, Inhabited

namespace Extent

/-- A type of a given bit width. -/
def scalar (bits alignment : Nat) : Extent where
  alignment
  laneBits := bits
  storeSize := ceilDiv bits 8
  allocSize := alignTo (ceilDiv bits 8) alignment

/-- A type that is stored as it is allocated. -/
def aggregate (alignment size : Nat) : Extent where
  alignment
  laneBits := size * 8
  storeSize := size
  allocSize := size

def nothing : Extent := aggregate 1 0

/-- So many lanes side by side. -/
def vector (lane : Extent) (length : Nat) : Extent :=
  let size := ceilDiv (lane.laneBits * length) 8
  let alignment := leastPowerOfTwo size
  { alignment, laneBits := size * 8, storeSize := size, allocSize := alignTo size alignment }

/-- So many elements one behind the other. -/
def array (element : Extent) (length : Nat) : Extent :=
  aggregate element.alignment (saturate (element.allocSize * length))

/-- The end of a field that is placed at the first aligned address from `offset` on. -/
def fieldEnd (offset : Nat) (field : Extent) : Nat :=
  saturate (alignTo offset field.alignment + field.allocSize)

def largestAlignment (fields : List Extent) : Nat :=
  fields.foldl (fun a field => max a field.alignment) 1

/-- Fields one behind the other, and room at the end for the next such struct. -/
def struct (fields : List Extent) : Extent :=
  let alignment := largestAlignment fields
  aggregate alignment (alignTo (fields.foldl fieldEnd 0) alignment)

/-- The room of a shape, given that of its components. -/
def ofShape (below : TypeId → Extent) : Shape → Extent
  | .void | .label | .metadata | .function .. => nothing
  | .integer bits => scalar bits.toNat (if 32 < bits.toNat then 8 else 4)
  | .half => scalar 16 4
  | .float | .pointer .. => scalar 32 4
  | .double => scalar 64 8
  | .vector element length => vector (below element) length.toNat
  | .array element length => array (below element) length.toNat
  | .struct _ fields => struct (fields.map below)

end Extent

namespace TypeTable

def extent (t : TypeTable) : TypeId → Extent := t.fold fun _ s below => Extent.ofShape below s

/-- Bytes from one element of an array of the type to the next. -/
def allocSize (t : TypeTable) (id : TypeId) : Nat := (t.extent id).allocSize

end TypeTable

end ShaderReport
