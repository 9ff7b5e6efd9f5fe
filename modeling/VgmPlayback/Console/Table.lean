import VgmPlayback.Text.Width

/-!
# Tables of two columns

Each column is as wide as its widest line, with a blank on either side.  A cell with line breaks takes several
lines.
-/

namespace VgmPlayback.Table

/-- The lines of a cell. -/
def cellLines (cell : String) : List String := cell.splitOn "\n"

/-- The columns that a column of cells takes. -/
def columnWidth (cells : List String) : Nat :=
  ((cells.flatMap cellLines).map Text.displayWidth).foldl max 0

/-- The lines of a row whose columns have these widths. -/
def rowLines (keyWidth valueWidth : Nat) (row : String × String) : List String :=
  (cellLines row.1).zipWithAll (fun key? value? =>
    let key := Text.padToWidth keyWidth (key?.getD "")
    let value := Text.padToWidth valueWidth (value?.getD "")
    " " ++ key ++ "  " ++ value ++ " ") (cellLines row.2)

/-- The lines of a table, from the row of its headings on. -/
def lines (rows : List (String × String)) : List String :=
  let keyWidth := columnWidth (rows.map Prod.fst)
  let valueWidth := columnWidth (rows.map Prod.snd)
  rows.flatMap (rowLines keyWidth valueWidth)

end VgmPlayback.Table
