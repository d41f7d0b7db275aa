/-
# Types in assembly syntax

A named struct reads as its name; every other type spells out what it is made
from.
-/
import ShaderReport.Types.Table
import ShaderReport.Text.Column

namespace ShaderReport

/-- How a shape reads, given how its components do. -/
def Shape.text (below : TypeId → String) : Shape → String
  | .void => "void"
  | .label => "label"
  | .metadata => "metadata"
  | .half => "half"
  | .float => "float"
  | .double => "double"
  | .integer bits => "i" ++ bits.toNat.repr
  | .vector element length => "<" ++ length.toNat.repr ++ " x " ++ below element ++ ">"
  | .array element length => "[" ++ length.toNat.repr ++ " x " ++ below element ++ "]"
  | .struct (some name) _ => "%" ++ name
  | .struct none fields => "\x7b " ++ Text.commaSeparated (fields.map below) ++ " \x7d"
  | .pointer pointee addressSpace =>
    if addressSpace = 0 then below pointee ++ "*"
    else below pointee ++ " addrspace(" ++ addressSpace.toNat.repr ++ ")*"
  | .function result parameters =>
    below result ++ " (" ++ Text.commaSeparated (parameters.map below) ++ ")"

/-- How the type at a place reads. -/
def TypeTable.text (t : TypeTable) : TypeId → String :=
  t.fold fun _ s below => s.text below

end ShaderReport
