/-
# `Bitcode` — raw and wrapped bitcode

Bitcode begins with a magic of its own, or stands inside a wrapper whose header
gives its place and size.  It is checked and measured, never decoded.
-/
import ShaderReport.Bytes.LittleEndian
import ShaderReport.Module.Basic
import ShaderReport.Text.Column
import ShaderReport.Text.Numeral

namespace ShaderReport

inductive LoadError where
  | empty
  | tooShort (length : Nat)
  | badMagic (found : Bytes)
  | wrapperRange (offset size : UInt32) (available : Nat)
  /-- Any other complaint of a loader. -/
  | malformed (complaint : String)
deriving DecidableEq

def LoadError.message : LoadError → String
  | .empty => "bitcode is empty"
  | .tooShort length => s!"bitcode is {length} bytes, too short for a header"
  | .badMagic found =>
    "invalid bitcode signature [" ++
      Text.commaSeparated (found.map fun x => Text.hexFixed 2 x.toNat) ++ "]"
  | .wrapperRange offset size available =>
    s!"bitcode wrapper range {offset}+{size} exceeds {available} bytes"
  | .malformed complaint => complaint

namespace Bitcode

/-- The first bytes of raw bitcode. -/
def magic : Bytes := [0x42, 0x43, 0xC0, 0xDE]

def wrapperMagic : UInt32 := 0x0B17C0DE

/-- Bytes in a wrapper's header. -/
def wrapperLength : Nat := 20

structure Unwrapped where
  body : Bytes
  wrapped : Bool
deriving DecidableEq

/-- Bytes that begin as raw bitcode does. -/
def checkRaw (b : Bytes) : Except LoadError Bytes :=
  if b.length < magic.length then .error (.tooShort b.length)
  else if b.take magic.length = magic then .ok b
  else .error (.badMagic (b.take magic.length))

/-- Takes off a wrapper, if there is one; a wrapper inside it is not taken off. -/
def unwrap (b : Bytes) : Except LoadError Unwrapped :=
  if b.isEmpty then .error .empty
  else if b.length < magic.length then .error (.tooShort b.length)
  else if b.u32At 0 = wrapperMagic then
    if b.length < wrapperLength then .error (.tooShort b.length)
    else
      let offset := b.u32At 8
      let size := b.u32At 12
      match b.slice offset.toNat size.toNat with
      | .error _ => .error (.wrapperRange offset size b.length)
      | .ok body => (checkRaw body).map (⟨·, true⟩)
  else (checkRaw b).map (⟨·, false⟩)

end Bitcode

/-- Makes a module of a given name from bitcode. -/
abbrev Loader := (bitcode : Bytes) → (name : String) → Except LoadError Module

/-- A loader that checks bitcode and records its length. -/
def Loader.undecoded : Loader := fun bitcode name =>
  (Bitcode.unwrap bitcode).map fun u =>
    { name, undecoded := some { length := u.body.length, wrapped := u.wrapped } }

end ShaderReport
