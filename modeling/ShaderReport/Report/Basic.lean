/-
# `Report` — text made of marked lines

Every line of a report begins with the marker, a character chosen by the reader,
so that the report can stand in front of a listing as one long comment.  A
report only grows: each operation appends to the text that is there.
-/

namespace ShaderReport

/-- Text and the marker of its lines. -/
structure Report where
  marker : Char
  text : String := ""
deriving DecidableEq, Inhabited

namespace Report

def marked (marker : Char) (ls : List String) : String :=
  String.join (ls.map fun l => marker.toString ++ l ++ "\n")

def append (r : Report) (text : String) : Report := { r with text := r.text ++ text }

/-- Appends marked lines. -/
def lines (r : Report) (ls : List String) : Report := r.append (marked r.marker ls)

def line (r : Report) (text : String) : Report := r.lines [text]

/-- Appends a line that holds only the marker. -/
def blank (r : Report) : Report := r.line ""

end Report

end ShaderReport
