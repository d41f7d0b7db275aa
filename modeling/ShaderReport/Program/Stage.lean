/-
# `Stage` — pipeline stages

A program is compiled for one stage of the pipeline, or is a library of them.
-/

namespace ShaderReport

/-- What a program was compiled for. -/
inductive Stage where
  | pixel
  | vertex
  | geometry
  | hull
  | domain
  | compute
  | library
deriving DecidableEq, Inhabited

namespace Stage

/-- All stages, in the order of their codes. -/
def all : List Stage := [.pixel, .vertex, .geometry, .hull, .domain, .compute, .library]

def code : Stage → Nat
  | .pixel => 0
  | .vertex => 1
  | .geometry => 2
  | .hull => 3
  | .domain => 4
  | .compute => 5
  | .library => 6

def ofCode? (n : Nat) : Option Stage := all[n]?

theorem ofCode?_code (s : Stage) : ofCode? s.code = some s := by cases s <;> rfl

theorem code_of_ofCode? {n : Nat} {s : Stage} (h : ofCode? n = some s) : s.code = n := by
  match n, h with
  | 0, h | 1, h | 2, h | 3, h | 4, h | 5, h | 6, h => cases h; rfl
  | n + 7, h => simp [ofCode?, all] at h

def name : Stage → String
  | .pixel => "Pixel"
  | .vertex => "Vertex"
  | .geometry => "Geometry"
  | .hull => "Hull"
  | .domain => "Domain"
  | .compute => "Compute"
  | .library => "Library"

/-- How a stage begins a profile name, as in `ps_6_0`. -/
def profile : Stage → String
  | .pixel => "ps"
  | .vertex => "vs"
  | .geometry => "gs"
  | .hull => "hs"
  | .domain => "ds"
  | .compute => "cs"
  | .library => "lib"

end Stage

end ShaderReport
