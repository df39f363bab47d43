import EntitySchema.Text.Columns

/-!
Tables with round corners: a header, a line below it, and the rows. A cell may have several
lines. A table without rows is left open at its bottom.
-/

namespace EntitySchema.Text

structure Table where
  header : List String
  rows : List (List String)
  deriving DecidableEq, Repr

namespace Table

def cellLines (cell : String) : List String := cell.splitOn "\n"

def cellWidth (cell : String) : Nat :=
  ((cellLines cell).map fun line => columns line.toList).foldl max 0

def widths (table : Table) : List Nat :=
  table.rows.foldl (fun widths row => List.zipWith max widths (row.map cellWidth))
    (table.header.map cellWidth)

def padded (width : Nat) (line : String) : String :=
  " " ++ line ++ String.ofList (List.replicate (width - columns line.toList) ' ') ++ " "

def rule (widths : List Nat) (left cross right : String) : String :=
  left ++ cross.intercalate (widths.map fun w => String.ofList (List.replicate (w + 2) '─')) ++
    right

/-- The lines of a row, as many as its highest cell has. -/
def rowLines (widths : List Nat) (row : List String) : List String :=
  let cells := row.map cellLines
  (List.range ((cells.map List.length).foldl max 0)).map fun i =>
    let line (width : Nat) (lines : List String) := padded width (lines[i]?.getD "")
    "│" ++ "│".intercalate (List.zipWith line widths cells) ++ "│"

def text (table : Table) : String :=
  let widths := table.widths
  let bottom := if table.rows.isEmpty then [] else [rule widths "╰" "┴" "╯"]
  "\n".intercalate <|
    [rule widths "╭" "┬" "╮"] ++ rowLines widths table.header ++ [rule widths "├" "┼" "┤"] ++
      table.rows.flatMap (rowLines widths) ++ bottom

end Table

end EntitySchema.Text
