import Detection.Text.Split

/-! # Tables with ruled lines -/

namespace Detection.Grid

/-- A column is as wide as its longest cell, and two wider than its heading at least. -/
def widths (headings : List String) (rows : List (List String)) : List Nat :=
  headings.mapIdx fun i h =>
    (rows.map fun row => ((row[i]?).getD "").length).foldl max (h.length + 2)

def rule (mark : Char) (ws : List Nat) : String :=
  "+" ++ "+".intercalate (ws.map fun w => String.ofList (List.replicate (w + 2) mark)) ++ "+"

def cell (w : Nat) (text : String) : String :=
  " " ++ text ++ String.ofList (List.replicate (w - text.length) ' ') ++ " "

def rowLine (ws : List Nat) (row : List String) : String :=
  "|" ++ "|".intercalate (List.zipWith cell ws row) ++ "|"

def lines (headings : List String) (rows : List (List String)) : List String :=
  let ws := widths headings rows
  [rule '-' ws, rowLine ws headings, rule '=' ws] ++
    rows.flatMap fun row => [rowLine ws row, rule '-' ws]

end Detection.Grid
