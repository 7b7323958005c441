import ProxyUpgrade.Text.Width
/-!
# Tables

A table has a header and rows of cells. Every column is as wide as the widest line in it, with a
blank on either side, and every row as high as its highest cell. Shorter lines are filled up on the
right, so that all lines of a table take the same columns.
-/

namespace ProxyUpgrade.Text

/-- A header and rows, with as many cells each. -/
structure Table where
  header : List String
  rows : List (List String)

namespace Table

/-- The lines of a cell. -/
def cellLines (cell : String) : List (List Char) := (cell.splitOn "\n").map String.toList

/-- The columns that the widest line of a cell takes. -/
def cellWidth (cell : String) : Nat :=
  (cellLines cell).foldl (fun most line => max most (width line)) 0

/-- The columns that the cells of each column take. -/
def widths (table : Table) : List Nat :=
  table.rows.foldl (fun widths row => List.zipWith max widths (row.map cellWidth))
    (table.header.map cellWidth)

/-- A character so many times. -/
def times (n : Nat) (c : Char) : String := String.ofList (List.replicate n c)

/-- A line that separates rows. -/
def rule (left fill cross right : Char) (widths : List Nat) : String :=
  left.toString ++ cross.toString.intercalate (widths.map fun n => times (n + 2) fill) ++
    right.toString

/-- A line of a cell, filled up to the width of its column. -/
def padded (columns : Nat) (line : List Char) : String :=
  " " ++ String.ofList line ++ times (columns - width line + 1) ' '

/-- A line of a row. -/
def rowLine (widths : List Nat) (cells : List (List (List Char))) (number : Nat) : String :=
  "│" ++ "┆".intercalate (List.zipWith (fun columns lines => padded columns (lines.getD number []))
    widths cells) ++ "│"

/-- The lines of a row. -/
def rowLines (widths : List Nat) (row : List String) : List String :=
  let cells := row.map cellLines
  let height := cells.foldl (fun most lines => max most lines.length) 0
  (List.range height).map (rowLine widths cells)

/-- The lines of a table. -/
def lines (table : Table) : List String :=
  let widths := table.widths
  [rule '┌' '─' '┬' '┐' widths] ++ rowLines widths table.header ++ [rule '╞' '═' '╪' '╡' widths] ++
    [rule '├' '╌' '┼' '┤' widths].intercalate (table.rows.map (rowLines widths)) ++
    [rule '└' '─' '┴' '┘' widths]

/-- The text of a table. -/
def text (table : Table) : String := "\n".intercalate table.lines

end Table

end ProxyUpgrade.Text
