/-
# `Component` — component types of resources and fields
-/

namespace ShaderReport

/-- What one component of a resource element or of a field is. -/
inductive Component where
  | invalid
  | i1
  | i16
  | u16
  | i32
  | u32
  | i64
  | u64
  | f16
  | f32
  | f64
  | snormF16
  | unormF16
  | snormF32
  | unormF32
  | snormF64
  | unormF64
deriving DecidableEq, Inhabited

namespace Component

/-- All component types, in the order of their codes. -/
def all : List Component :=
  [.invalid, .i1, .i16, .u16, .i32, .u32, .i64, .u64, .f16, .f32, .f64,
   .snormF16, .unormF16, .snormF32, .unormF32, .snormF64, .unormF64]

def ofCode? (n : Nat) : Option Component := all[n]?

/-- The short name, shown in tables. -/
def name : Component → String
  | .invalid => "invalid"
  | .i1 => "i1"
  | .i16 => "i16"
  | .u16 => "u16"
  | .i32 => "i32"
  | .u32 => "u32"
  | .i64 => "i64"
  | .u64 => "u64"
  | .f16 => "f16"
  | .f32 => "f32"
  | .f64 => "f64"
  | .snormF16 => "snorm_f16"
  | .unormF16 => "unorm_f16"
  | .snormF32 => "snorm_f32"
  | .unormF32 => "unorm_f32"
  | .snormF64 => "snorm_f64"
  | .unormF64 => "unorm_f64"

/-- The keyword, used in declarations. -/
def keyword : Component → String
  | .invalid => "unknown"
  | .i1 => "bool"
  | .i16 => "min16i"
  | .u16 => "min16ui"
  | .i32 => "int"
  | .u32 => "uint"
  | .i64 => "int64_t"
  | .u64 => "uint64_t"
  | .f16 => "min16float"
  | .f32 => "float"
  | .f64 => "double"
  | .snormF16 => "snorm_min16f"
  | .unormF16 => "unorm_min16f"
  | .snormF32 => "snorm_float"
  | .unormF32 => "unorm_float"
  | .snormF64 => "snorm_double"
  | .unormF64 => "unorm_double"

end Component

end ShaderReport
