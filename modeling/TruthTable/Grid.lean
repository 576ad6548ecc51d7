import TruthTable.Text

/-!
# Grids

A grid is a table without a notation: a header and rows of cells, the number of columns that stand
in front of the bar, and the number of those behind it.

In LaTeX a grid is shown as an `array`. All columns are centred, and a bar stands behind those of
the symbols, if there are any. Cells are separated by ` & `, and every line but that of the last row
ends with `\\`.

In plain text every cell stands in the middle of its column. Columns are one character apart, a bar
stands between the columns of the symbols and the others, and a rule of hyphens below the header. No
line ends with a blank.
-/

namespace TruthTable

/-- The cells of a table. The first `symbolCount` columns belong to the symbols, and `nodeCount`
more to the nodes of the formula. -/
structure Grid where
  symbolCount : Nat
  nodeCount : Nat
  header : List String
  rows : List (List String)
  deriving DecidableEq, Repr

namespace Grid

/-! ## LaTeX -/

/-- The cells of a line. -/
def latexCells (cells : List String) : String :=
  "    " ++ " & ".intercalate cells ++ " "

/-- The columns of the array. -/
def latexColumns (grid : Grid) : String :=
  let nodeColumns := Text.repeated grid.nodeCount 'c'
  if grid.symbolCount = 0 then nodeColumns
  else Text.repeated grid.symbolCount 'c' ++ "|" ++ nodeColumns

/-- The lines of the array. -/
def latexLines (grid : Grid) : List String :=
  ["\\begin\x7barray\x7d\x7b" ++ grid.latexColumns ++ "\x7d",
    latexCells grid.header ++ "\\\\ \\hline"] ++
  grid.rows.dropLast.map (fun cells => latexCells cells ++ "\\\\") ++
  grid.rows.getLast?.toList.map latexCells ++
  ["\\end\x7barray\x7d"]

/-- The grid as an array. -/
def latex (grid : Grid) : String :=
  Text.ofLines grid.latexLines

/-! ## Plain text -/

/-- The widths of the columns: those of the header cells, and no less than `least`. -/
def plainWidths (grid : Grid) (least : Nat) : List Nat :=
  grid.header.map fun cell => max cell.length least

/-- Puts the columns of a line together, with `gap` between two columns and `bar` behind those of
the symbols, if there are any. -/
def plainJoin (grid : Grid) (gap bar : String) (columns : List String) : String :=
  if grid.symbolCount = 0 then gap.intercalate columns
  else
    gap.intercalate (columns.take grid.symbolCount) ++ bar ++
      gap.intercalate (columns.drop grid.symbolCount)

/-- A line of cells in columns of the given widths. -/
def plainCells (grid : Grid) (widths : List Nat) (cells : List String) : String :=
  Text.trimEnd (grid.plainJoin " " " | " (List.zipWith Text.centre widths cells))

/-- The rule below the header. -/
def plainRule (grid : Grid) (widths : List Nat) : String :=
  grid.plainJoin "-" "-+-" (widths.map (Text.repeated · '-'))

/-- The lines of the table: header, rule and rows. -/
def plainLines (grid : Grid) (least : Nat) : List String :=
  let widths := grid.plainWidths least
  grid.plainCells widths grid.header :: grid.plainRule widths ::
    grid.rows.map (grid.plainCells widths)

/-- The grid in plain text, in columns of at least the given width. -/
def plain (grid : Grid) (least : Nat) : String :=
  Text.ofLines (grid.plainLines least)

end Grid

end TruthTable
