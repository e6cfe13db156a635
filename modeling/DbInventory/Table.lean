/-
# DbInventory.Table -- texts in columns

A table has a row of headings, a rule and a block of lines for each row. A cell's text may
have several lines; a block has as many lines as its tallest cell. Each column is as wide as
its widest line, counted in columns of the screen, and one blank stands on each side of a
cell.
-/

import DbInventory.Text.Parts
import DbInventory.Unicode.Width

namespace DbInventory.Table

/-- The text of a cell. -/
abbrev Cell := List Char

/-- The lines of a cell. -/
def cellLines (cell : Cell) : List (List Char) := Text.parts '\n' cell

/-- The columns of the widest line of a cell. -/
def cellWidth (cell : Cell) : Nat :=
  ((cellLines cell).map Unicode.textWidth).foldl max 0

/-- The lines of the tallest cell of a row. -/
def rowHeight (row : List Cell) : Nat :=
  (row.map fun cell => (cellLines cell).length).foldl max 0

/-- The widest cell of a column. -/
def columnWidth (rows : List (List Cell)) (column : Nat) : Nat :=
  (rows.map fun row => cellWidth (row.getD column [])).foldl max 0

/-- The widths of the columns. -/
def columnWidths (count : Nat) (rows : List (List Cell)) : List Nat :=
  (List.range count).map (columnWidth rows)

/-- A line of a cell between blanks, filled up to a width. -/
def paddedLine (width : Nat) (line : List Char) : List Char :=
  ' ' :: line ++ List.replicate (width - Unicode.textWidth line) ' ' ++ [' ']

/-- One line of a row; a cell without a line there is blank. -/
def rowLine (widths : List Nat) (row : List Cell) (n : Nat) : List Char :=
  Text.joinParts '|' (List.zipWith (fun width cell => paddedLine width ((cellLines cell).getD n []))
    widths row)

/-- The lines of a row. -/
def rowLines (widths : List Nat) (row : List Cell) : List (List Char) :=
  (List.range (rowHeight row)).map (rowLine widths row)

/-- The rule below the headings. -/
def ruleLine (widths : List Nat) : List Char :=
  Text.joinParts '+' (widths.map fun width => List.replicate (width + 2) '-')

/-- The lines of a table. -/
def tableLines (headings : List Cell) (rows : List (List Cell)) : List (List Char) :=
  let widths := columnWidths headings.length (headings :: rows)
  rowLines widths headings ++ ruleLine widths :: rows.flatMap (rowLines widths)

/-- The text of a table, without a line feed at the end. -/
def tableText (headings : List Cell) (rows : List (List Cell)) : List Char :=
  Text.joinParts '\n' (tableLines headings rows)

end DbInventory.Table
