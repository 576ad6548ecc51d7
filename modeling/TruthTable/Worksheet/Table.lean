import TruthTable.Arena.Parenthesis
import TruthTable.Grid
import TruthTable.Worksheet

/-!
# The truth table

Every node has a cell of its own, in reading order, and behind the cells of the symbols. The
header shows a node with its share of the parentheses, so the header cells of all nodes in a row
spell the formula. The cells of a row show truth values.

A table has a row for every valuation of the symbols. It is refused before any evaluation if there
are more symbols than the options allow.
-/

namespace TruthTable

variable {Link : Type}

/-- A node as it was written. Truth constants are written as words. -/
def Node.written : Node Link → String
  | .symbol name => name
  | .constant true => "TRUE"
  | .constant false => "FALSE"
  | .not spelling _ | .binary _ spelling _ _ => spelling

/-- A node as it is shown: a symbol by its name, all else by a glyph. The glyph of a truth constant
is that of its command. -/
def Node.shown (format : Format) : Node Link → String
  | .symbol name => name
  | .constant true => format.glyph "\\top"
  | .constant false => format.glyph "\\bot"
  | .not spelling _ | .binary _ spelling _ _ => format.glyph spelling

namespace Worksheet

/-- The texts of the nodes in reading order, each with its parentheses. -/
def spell (sheet : Worksheet) (text : Fin sheet.arena.size → String) : List String :=
  let counts := sheet.arena.parenCounts
  sheet.readingOrder.map fun i => parenthesize counts[i] (text i)

/-- The formula as it was written, one text for each node. -/
def words (sheet : Worksheet) : List String :=
  sheet.spell fun i => (sheet.arena.node i).written

/-- The formula as it was written, with single spaces and no parentheses but the needed ones. -/
def print (sheet : Worksheet) : String :=
  " ".intercalate sheet.words

/-- The header of the table: the symbols and the formula, one text for each node. -/
def header (sheet : Worksheet) (format : Format) : List String :=
  sheet.symbols ++ sheet.spell fun i => (sheet.arena.node i).shown format

/-- The values of the symbols in a valuation and those of the nodes in the last evaluation. -/
def cells (sheet : Worksheet) (options : Options) (valuation : Valuation) : List String :=
  sheet.symbols.map (fun name => options.display (valuation.value name)) ++
    sheet.readingOrder.map fun i => options.display sheet.truth[i]

/-- The cells of a row, and the worksheet after the evaluation that they need. -/
def row (sheet : Worksheet) (options : Options) (row : UInt64) : List String × Worksheet :=
  let valuation := sheet.valuation options.toRowOrder row
  let evaluated := sheet.evaluate valuation
  (evaluated.cells options valuation, evaluated)

/-- The cells of the first `count` rows, and the worksheet after them. -/
def rows (sheet : Worksheet) (options : Options) (count : Nat) :
    Array (List String) × Worksheet :=
  count.fold (fun r _ (rows, sheet) =>
    let (cells, evaluated) := sheet.row options (UInt64.ofNat r)
    (rows.push cells, evaluated)) (#[], sheet)

end Worksheet

/-! ## The table -/

/-- Why there is no table. -/
inductive TableError where
  /-- There are more symbols than the limit. -/
  | tooManySymbols (count limit : Nat)
  deriving DecidableEq, Repr

/-- The words for an error. -/
def TableError.message : TableError → String
  | .tooManySymbols count limit =>
    "formula has " ++ toString count ++ " symbols, at most " ++ toString limit ++ " are supported"

/-- The grid in the notation of the options. -/
def Grid.render (grid : Grid) (options : Options) : String :=
  match options.format with
  | .latex => grid.latex
  | .plain => grid.plain options.valueWidth

namespace Worksheet

/-- All cells of the table, and the worksheet after its last row. -/
def grid (sheet : Worksheet) (options : Options) : Grid × Worksheet :=
  let (rows, evaluated) := sheet.rows options (Nat.pow 2 sheet.symbols.length)
  (⟨sheet.symbols.length, sheet.size, sheet.header options.format, rows.toList⟩, evaluated)

/-- The table, and the worksheet after its last row. -/
def table (sheet : Worksheet) (options : Options) : Except TableError (String × Worksheet) :=
  if sheet.symbols.length ≤ options.symbolLimit then
    let (grid, evaluated) := sheet.grid options
    .ok (grid.render options, evaluated)
  else
    .error (.tooManySymbols sheet.symbols.length options.symbolLimit)

end Worksheet

end TruthTable
