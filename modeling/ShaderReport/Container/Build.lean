/-
# `Container.build` — writing a container

The inverse of reading: the parts follow one another behind the offset table,
and each offset is the sum of what stands before it.  The digest is left zero.
-/
import ShaderReport.Container.Basic

namespace ShaderReport.Container

/-- A part as written: tag, payload length, payload. -/
def partBytes (part : Tag × Bytes) : Bytes :=
  part.1.toBytes ++ Bytes.ofNatLE 4 part.2.length ++ part.2

/-- The offsets of parts laid end to end from `start` on. -/
def partOffsets : (start : Nat) → List (Tag × Bytes) → List Nat
  | _, [] => []
  | start, part :: rest =>
    start :: partOffsets (start + partHeaderLength + part.2.length) rest

/-- Bytes taken by parts, their headers and their offsets, behind the fixed header. -/
def bodyLength : List (Tag × Bytes) → Nat
  | [] => 0
  | part :: rest => 4 + partHeaderLength + part.2.length + bodyLength rest

/-- A container holding the given payloads in the given order. -/
def build (parts : List (Tag × Bytes)) : Bytes :=
  Tag.container.toBytes ++ List.replicate 16 0 ++
    Bytes.ofUInt16 majorVersion ++ Bytes.ofUInt16 0 ++
    Bytes.ofNatLE 4 (headerLength + bodyLength parts) ++
    Bytes.ofNatLE 4 parts.length ++
    (partOffsets (headerLength + 4 * parts.length) parts).flatMap (Bytes.ofNatLE 4) ++
    parts.flatMap partBytes

end ShaderReport.Container
