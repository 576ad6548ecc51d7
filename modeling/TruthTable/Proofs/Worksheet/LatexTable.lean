import TruthTable.Proofs.Grid.LatexLines
import TruthTable.Proofs.Worksheet.CellTexts

/-!
# Tables in LaTeX

The text of a table is enough to get all of its cells back, if no name, no spelling and no text for
a truth value has a blank (`Worksheet.latexShows_table`). The first line announces the columns: it
counts the symbols and the nodes, not the cells. The header and every row have as many cells.
-/

namespace TruthTable.Worksheet

/-- A table in LaTeX is split into its lines, and the lines into the cells. With as many symbols as
are supported, no name, no spelling and no text for a truth value with a blank, there are three
lines more than rows. The first one has a column for each symbol and each node, with a bar between
them if there are symbols. Without indent and ending, the second line is split into the cells of
the header, and the line of each row into the cells of the row, which are as many as the columns. -/
theorem latexShows_table (formula : Formula) (truth : Vector Bool formula.arena.size)
    (options : Options) (latex : options.format = .latex) (unbroken : formula.Unbroken)
    (values : options.Unbroken) (few : formula.symbols.length ≤ min options.maxSymbols 63) :
    let sheet := ofTruth formula truth
    let symbolCount := formula.symbols.length
    let rowCount := 2 ^ symbolCount
    let row (r : Nat) : List String := (sheet.row options (UInt64.ofNat r)).1
    ∃ text evaluated lines, sheet.table options = .ok (text, evaluated) ∧
      Text.split "\n" text = lines ++ [""] ∧ lines.length = rowCount + 3 ∧
      lines[0]? = some ("\\begin\x7barray\x7d\x7b" ++
        (Text.repeated symbolCount 'c' ++ (if symbolCount = 0 then "" else "|") ++
          Text.repeated formula.size 'c') ++ "\x7d") ∧
      (∃ line, lines[1]? = some line ∧
        Grid.LatexShows " \\\\ \\hline" (sheet.header .latex) line) ∧
      (∀ r < rowCount, ∃ line, lines[r + 2]? = some line ∧
        Grid.LatexShows (if r + 1 < rowCount then " \\\\" else " ") (row r) line) ∧
      lines[rowCount + 2]? = some "\\end\x7barray\x7d" ∧
      (sheet.header .latex).length = symbolCount + formula.size ∧
      ∀ r < rowCount, (row r).length = symbolCount + formula.size := by
  intro sheet symbolCount rowCount row
  let grid := freshGrid formula options
  have rendered : grid.render options = grid.latex := by rw [Grid.render, latex]
  have header : grid.header = sheet.header .latex := congrArg sheet.header latex
  have headerLength : grid.header.length = symbolCount + formula.size := length_header formula _
  have rowLength (r : Nat) : (row r).length = symbolCount + formula.size := length_row truth _ _
  have rowsLength : grid.rows.length = rowCount := length_rows_freshGrid formula options
  have rows {r : Nat} (inside : r < rowCount) : grid.rows[r]? = some (row r) :=
    getElem?_rows_freshGrid truth options inside
  obtain ⟨headerUnbroken, rowsUnbroken⟩ := unbroken_freshGrid unbroken values
  have notEmpty {cells : List String} (length : cells.length = symbolCount + formula.size) :
      cells ≠ [] :=
    List.ne_nil_of_length_pos (by have := formula.size_pos; omega)
  refine ⟨_, _, grid.latexLines, table_of_le truth few,
    rendered ▸ Grid.split_latex headerUnbroken rowsUnbroken, ?_, ?_, ?_, fun r inside => ?_, ?_,
    header ▸ headerLength, fun r _ => rowLength r⟩
  · rw [Grid.length_latexLines, rowsLength]
  · have nodes : grid.nodeCount = formula.size := formula.size_arena.trans formula.length_levelOrder
    rw [Grid.getElem?_latexLines_zero, nodes]
    rfl
  · rw [← header]
    exact Grid.latexShows_header headerUnbroken (notEmpty headerLength)
  · rw [← rowsLength]
    exact Grid.latexShows_row (rows inside) (rowsUnbroken _ (List.mem_of_getElem? (rows inside)))
      (notEmpty (rowLength r))
  · rw [← rowsLength]
    exact grid.getElem?_latexLines_last

/-- True is shown by the sign between two cells, and false by nothing. -/
theorem latexShows_table_of_ampersand :
    let formula : Formula := .binary .and "&" (.symbol "p") (.constant true)
    let stale := Vector.replicate _ true
    let options : Options := { trueText := "&", falseText := "" }
    options.format = .latex ∧ formula.Unbroken ∧ options.Unbroken ∧
      formula.symbols.length ≤ min options.maxSymbols 63 ∧
      ∃ text evaluated lines, (ofTruth formula stale).table options = .ok (text, evaluated) ∧
        Text.split "\n" text = lines ++ [""] ∧ lines.length = 5 ∧
        lines[0]? = some "\\begin\x7barray\x7d\x7bc|ccc\x7d" ∧
        (∃ line, lines[2]? = some line ∧ Grid.LatexShows " \\\\" ["", "", "", "&"] line) ∧
        ∃ line, lines[3]? = some line ∧ Grid.LatexShows " " ["&", "&", "&", "&"] line := by
  intro formula stale options
  have unbroken : formula.Unbroken := by decide
  have values : options.Unbroken := by decide
  have one : formula.symbols.length = 1 := by decide +kernel
  have few : formula.symbols.length ≤ min options.maxSymbols 63 := one ▸ by decide
  obtain ⟨text, evaluated, lines, made, split, count, columns, -, rows, -⟩ :=
    latexShows_table formula stale options rfl unbroken values few
  have row0 : ((ofTruth formula stale).row options (UInt64.ofNat 0)).1 = ["", "", "", "&"] := by
    decide +kernel
  have row1 : ((ofTruth formula stale).row options (UInt64.ofNat 1)).1 = ["&", "&", "&", "&"] := by
    decide +kernel
  rw [one] at count columns rows
  exact ⟨rfl, unbroken, values, few, text, evaluated, lines, made, split, count, columns,
    row0 ▸ rows 0 (by decide), row1 ▸ rows 1 (by decide)⟩

end TruthTable.Worksheet
