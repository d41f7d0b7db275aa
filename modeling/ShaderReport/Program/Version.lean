/-
# `Program.Version` — the packed version word

One word holds the stage in its upper half, the shader model's major number in
bits 4 to 7 and its minor number in bits 0 to 3.
-/
import ShaderReport.Program.Stage
import ShaderReport.Text.Numeral

namespace ShaderReport

structure Program.Version where
  raw : UInt32
deriving DecidableEq, Inhabited

namespace Program.Version

/-- Packs a stage and a shader model; the numbers keep their lowest four bits. -/
def pack (stage : Stage) (major minor : Nat) : Version :=
  ⟨.ofNat (stage.code * 65536 + major % 16 * 16 + minor % 16)⟩

/-- The stage field as a number. -/
def stageCode (v : Version) : Nat := v.raw.toNat / 65536

/-- The stage, if the field names one. -/
def stage? (v : Version) : Option Stage := Stage.ofCode? v.stageCode

def major (v : Version) : Nat := v.raw.toNat / 16 % 16

def minor (v : Version) : Nat := v.raw.toNat % 16

/-- The profile name, or the bare word if it names no stage. -/
def text (v : Version) : String :=
  match v.stage? with
  | some stage => s!"{stage.profile}_{v.major}_{v.minor}"
  | none => s!"ProgramVersion(0x{Text.hexFixed 8 v.raw.toNat})"

end Program.Version

end ShaderReport
