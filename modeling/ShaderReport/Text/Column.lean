/-
# `Column` — text set in columns

Widths count characters, and a text wider than its column is never cut.
-/

namespace ShaderReport.Text

def blanks (n : Nat) : String := String.ofList (List.replicate n ' ')

/-- The text at the left of a column. -/
def padRight (width : Nat) (s : String) : String := s ++ blanks (width - s.length)

/-- The text at the right of a column. -/
def padLeft (width : Nat) (s : String) : String := blanks (width - s.length) ++ s

/-- Texts with a separator between neighbours. -/
def commaSeparated : List String → String
  | [] => ""
  | s :: rest => s ++ String.join (rest.map (", " ++ ·))

theorem commaSeparated_cons_cons (s t : String) (rest : List String) :
    commaSeparated (s :: t :: rest) = s ++ ", " ++ commaSeparated (t :: rest) := by
  simp [commaSeparated, String.join_cons, String.append_assoc]

/-- Lines, each ended by a line break. -/
def lines (ls : List String) : String := String.join (ls.map (· ++ "\n"))

def beginsWith (start s : String) : Bool := start.toList.isPrefixOf s.toList

end ShaderReport.Text
