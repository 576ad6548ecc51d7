import TruthTable.Proofs.Grid.PlainLines
import TruthTable.Proofs.Valuation.Reversal
import TruthTable.Proofs.Worksheet.CellTexts

/-!
# Tables with reversed rows and columns

The cells of a row follow from its valuation and the texts for truth values. So an order that gives
one row the valuation of another moves all cells of the row together: with the rows reversed a row
shows what its opposite showed (`Worksheet.row_turnRows`), with the columns reversed what its mirror
image showed (`Worksheet.row_turnColumns`).

For a whole table this means that to reverse the rows is to turn the list of rows round
(`Worksheet.freshGrid_turnRows`). The widths of the columns do not depend on the rows, so in plain
text the lines of the rows are turned round and nothing else changes. To reverse the columns
rearranges the rows (`Worksheet.rowCells_turnColumns`).
-/

namespace TruthTable

/-- The options with all values of symbols inverted. -/
def Options.turnRows (options : Options) : Options :=
  { options with reverseRows := !options.reverseRows }

/-- The options with the columns taken from the other side of a row number. -/
def Options.turnColumns (options : Options) : Options :=
  { options with reverseColumns := !options.reverseColumns }

theorem Options.oneLine_display {options : Options} (ofTrue : Text.OneLine options.trueText)
    (ofFalse : Text.OneLine options.falseText) (value : Bool) :
    Text.OneLine (options.display value) := by
  cases value
  · exact ofFalse
  · exact ofTrue

namespace Worksheet

variable {sheet : Worksheet} {formula : Formula} {options options' : Options} {r : Nat}

/-! ## One row -/

/-- A row depends on its valuation and the texts for truth values only. -/
theorem row_congr {row row' : UInt64} (sameValuation :
      sheet.valuation options.toRowOrder row = sheet.valuation options'.toRowOrder row')
    (sameTexts : options.display = options'.display) :
    sheet.row options row = sheet.row options' row' := by
  unfold Worksheet.row cells
  rw [sameValuation, sameTexts]

theorem row_turnRows (sheet : Worksheet) (options : Options) (few : sheet.symbols.length ≤ 63)
    (below : r < 2 ^ sheet.symbols.length) :
    sheet.row options.turnRows (UInt64.ofNat r) =
      sheet.row options (UInt64.ofNat (oppositeRow sheet.symbols.length r)) :=
  row_congr (Valuation.ofRow_turnRows few below) rfl

theorem row_turnColumns (sheet : Worksheet) (options : Options) (few : sheet.symbols.length ≤ 63)
    (below : r < 2 ^ sheet.symbols.length) :
    sheet.row options.turnColumns (UInt64.ofNat r) =
      sheet.row options (UInt64.ofNat (mirroredRow sheet.symbols.length r)) :=
  row_congr (Valuation.ofRow_turnColumns few below) rfl

/-- In front, a row shows the values of the symbols. -/
theorem take_row (sheet : Worksheet) (options : Options) (row : UInt64) :
    (sheet.row options row).1.take sheet.symbols.length =
      (sheet.symbols.map (sheet.valuation options.toRowOrder row).value).map options.display := by
  have count : (sheet.symbols.map fun name =>
      options.display ((sheet.valuation options.toRowOrder row).value name)).length =
        sheet.symbols.length := List.length_map _
  rw [List.map_map]
  exact List.take_left' count

/-! ## All rows -/

theorem rowCells_turnRows (few : formula.symbols.length ≤ 63) :
    rowCells formula options.turnRows (2 ^ formula.symbols.length) =
      (rowCells formula options (2 ^ formula.symbols.length)).reverse := by
  apply List.ext_getElem?
  intro r
  by_cases below : r < 2 ^ formula.symbols.length
  · have counted : r < (rowCells formula options (2 ^ formula.symbols.length)).length := by
      rwa [length_rowCells]
    have opposite := oppositeRow_lt formula.symbols.length r
    unfold oppositeRow at opposite
    rw [List.getElem?_reverse counted, length_rowCells, getElem?_rowCells below,
      getElem?_rowCells opposite]
    exact congrArg (fun answer => some answer.1)
      (row_turnRows (ofFormula formula) options few below)
  · rw [List.getElem?_eq_none, List.getElem?_eq_none]
    · rw [List.length_reverse, length_rowCells]
      exact Nat.not_lt.mp below
    · rw [length_rowCells]
      exact Nat.not_lt.mp below

theorem rowCells_turnColumns (few : formula.symbols.length ≤ 63) :
    (rowCells formula options.turnColumns (2 ^ formula.symbols.length)).Perm
      (rowCells formula options (2 ^ formula.symbols.length)) := by
  have mirrored : rowCells formula options.turnColumns (2 ^ formula.symbols.length) =
      ((List.range (2 ^ formula.symbols.length)).map (mirroredRow formula.symbols.length)).map
        fun r => ((ofFormula formula).row options (UInt64.ofNat r)).1 := by
    rw [rowCells, List.map_map]
    refine List.map_congr_left fun r mem => ?_
    exact congrArg Prod.fst
      (row_turnColumns (ofFormula formula) options few (List.mem_range.mp mem))
  rw [mirrored]
  exact (map_mirroredRow_perm _).map _

/-! ## The table -/

theorem freshGrid_turnRows (few : formula.symbols.length ≤ 63) :
    freshGrid formula options.turnRows =
      { freshGrid formula options with rows := (freshGrid formula options).rows.reverse } := by
  unfold freshGrid
  rw [rowCells_turnRows few]
  rfl

/-- With the rows reversed, the lines of the rows are turned round. -/
theorem split_plain_turnRows (options : Options) (few : formula.symbols.length ≤ 63)
    (values : ∀ value, Text.OneLine (options.display value)) :
    ∃ header rule lines,
      Text.split "\n" ((freshGrid formula options).plain options.valueWidth) =
        header ++ rule :: (lines ++ [""]) ∧
      Text.split "\n" ((freshGrid formula options.turnRows).plain options.valueWidth) =
        header ++ rule :: (lines.reverse ++ [""]) ∧
      lines.length = 2 ^ formula.symbols.length ∧
      ((∀ part ∈ formula.subformulas, Text.OneLine part.written) → header.length = 1) := by
  let grid := freshGrid formula options
  let widths := grid.plainWidths options.valueWidth
  have rowsOneLine : ∀ cells ∈ grid.rows, ∀ cell ∈ cells, Text.OneLine cell := by
    intro cells mem cell inRow
    obtain ⟨r, -, rfl⟩ := List.mem_map.mp mem
    obtain ⟨value, rfl⟩ := mem_row inRow
    exact values value
  refine ⟨Text.split "\n" (grid.plainCells widths grid.header), grid.plainRule widths,
    grid.rows.map (grid.plainCells widths), grid.split_plain_of_oneLine rowsOneLine _, ?_, ?_,
    fun each => ?_⟩
  · have turnedOneLine : ∀ cells ∈ grid.rows.reverse, ∀ cell ∈ cells, Text.OneLine cell :=
      fun cells mem => rowsOneLine cells (List.mem_reverse.mp mem)
    rw [freshGrid_turnRows few, ← List.map_reverse]
    exact Grid.split_plain_of_oneLine { grid with rows := grid.rows.reverse } turnedOneLine _
  · rw [List.length_map]
    exact length_rows_freshGrid formula options
  · have headerOneLine : Text.OneLine (grid.plainCells widths grid.header) :=
      Grid.oneLine_plainCells (all_header (fun c visible => ?_) each _)
    · rw [Text.split_oneLine headerOneLine, List.length_singleton]
    · rintro rfl
      cases visible

/-- What the two flags do to a table. With the rows reversed a row shows what the row showed that is
as far from the other end, with the columns reversed what the row with the mirrored low bits showed,
and it does not matter which is done first. So the header stays, the rows are turned round in the
one case and rearranged in the other. In plain text, where the texts for truth values have no line
feeds, the lines behind the header and the rule are turned round; the header is one line if names
and spellings have no line feeds. If the columns are reversed and the rows are not, then the values
of the symbols come in lexicographic order, with false before true. -/
theorem reversals_permute (formula : Formula) (truth : Vector Bool formula.arena.size)
    (options : Options) (few : formula.symbols.length ≤ 63) :
    let sheet := ofTruth formula truth
    let count := formula.symbols.length
    let rowsTurned : Options := { options with reverseRows := !options.reverseRows }
    let columnsTurned : Options := { options with reverseColumns := !options.reverseColumns }
    let bothTurned : Options :=
      { options with
        reverseRows := !options.reverseRows
        reverseColumns := !options.reverseColumns }
    let row (options : Options) (r : Nat) : List String := (sheet.row options (UInt64.ofNat r)).1
    let opposite (r : Nat) : Nat := 2 ^ count - 1 - r
    let mirrored (r : Nat) : Nat := (BitVec.ofNat count r).reverse.toNat
    let values (r : Nat) : List Bool :=
      sheet.symbols.map (sheet.valuation options.toRowOrder (UInt64.ofNat r)).value
    (∀ r < 2 ^ count, row rowsTurned r = row options (opposite r) ∧
        row columnsTurned r = row options (mirrored r) ∧
        row bothTurned r = row options (opposite (mirrored r)) ∧
        opposite (mirrored r) = mirrored (opposite r)) ∧
      (sheet.grid rowsTurned).1 =
        { (sheet.grid options).1 with rows := (sheet.grid options).1.rows.reverse } ∧
      ((sheet.grid columnsTurned).1.header = (sheet.grid options).1.header ∧
        (sheet.grid columnsTurned).1.rows.Perm (sheet.grid options).1.rows) ∧
      (options.format = .plain → count ≤ min options.maxSymbols 63 →
        Text.OneLine options.trueText → Text.OneLine options.falseText →
        ∃ text text' evaluated evaluated' header rule lines,
          sheet.table options = .ok (text, evaluated) ∧
          sheet.table rowsTurned = .ok (text', evaluated') ∧
          Text.split "\n" text = header ++ rule :: (lines ++ [""]) ∧
          Text.split "\n" text' = header ++ rule :: (lines.reverse ++ [""]) ∧
          lines.length = 2 ^ count ∧
          ((∀ part ∈ formula.subformulas, Text.OneLine part.written) → header.length = 1)) ∧
      (∀ r, (row options r).take count = (values r).map options.display) ∧
      (options.reverseColumns = true → options.reverseRows = false →
        ∀ r r', r < r' → r' < 2 ^ count →
          List.Lex (fun a b => a = false ∧ b = true) (values r) (values r')) := by
  intro sheet count rowsTurned columnsTurned bothTurned row opposite mirrored values
  have bothRow {r : Nat} (below : r < 2 ^ count) :
      row bothTurned r = row options (opposite (mirrored r)) := by
    have columns := row_turnColumns sheet options.turnRows few below
    have rows := row_turnRows sheet options few (mirroredRow_lt count r)
    exact congrArg Prod.fst (columns.trans rows)
  have grids (options : Options) : (sheet.grid options).1 = freshGrid formula options :=
    congrArg Prod.fst (grid_ofTruth options)
  refine ⟨fun r below => ⟨?_, ?_, bothRow below, oppositeRow_mirroredRow below⟩, ?_, ⟨?_, ?_⟩, ?_,
    fun r => take_row sheet options _, ?_⟩
  · exact congrArg Prod.fst (row_turnRows sheet options few below)
  · exact congrArg Prod.fst (row_turnColumns sheet options few below)
  · rw [grids, grids]
    exact freshGrid_turnRows few
  · rw [grids, grids]
    rfl
  · rw [grids, grids]
    exact rowCells_turnColumns few
  · intro plain fewer ofTrue ofFalse
    obtain ⟨header, rule, lines, split, split', counted, one⟩ :=
      split_plain_turnRows options few (options.oneLine_display ofTrue ofFalse)
    have render : (freshGrid formula options).render options =
        (freshGrid formula options).plain options.valueWidth := by rw [Grid.render, plain]
    have render' : (freshGrid formula rowsTurned).render rowsTurned =
        (freshGrid formula options.turnRows).plain options.valueWidth := by
      rw [Grid.render, show rowsTurned.format = .plain from plain]
      rfl
    refine ⟨_, _, _, _, header, rule, lines, table_of_le truth fewer, table_of_le truth fewer,
      ?_, ?_, counted, one⟩
    · rw [render, split]
    · rw [render', split']
  · intro highFirst kept r r' less below
    exact Valuation.map_value_lex formula.nodup_symbols few highFirst kept less below

/-- The text for true has a blank and the one for false has no character, so lines of rows can have
any width. -/
theorem reversals_permute_of_blank :
    let formula : Formula := .binary .implies "->" (.symbol "q") (.not "!" (.symbol "p"))
    let stale := Vector.replicate _ true
    let options : Options :=
      { reverseColumns := true, trueText := "it is", falseText := "", format := .plain }
    let row (options : Options) (r : Nat) : List String :=
      ((ofTruth formula stale).row options (UInt64.ofNat r)).1
    formula.symbols.length ≤ 63 ∧ formula.symbols.length ≤ min options.maxSymbols 63 ∧
      Text.OneLine options.trueText ∧ Text.OneLine options.falseText ∧
      row { options with reverseRows := true } 1 = row options 2 ∧
      row { options with reverseColumns := false } 1 = row options 2 ∧
      (∃ text text' evaluated evaluated' header rule lines,
        (ofTruth formula stale).table options = .ok (text, evaluated) ∧
        (ofTruth formula stale).table { options with reverseRows := true } =
          .ok (text', evaluated') ∧
        Text.split "\n" text = header ++ rule :: (lines ++ [""]) ∧
        Text.split "\n" text' = header ++ rule :: (lines.reverse ++ [""]) ∧
        lines.length = 4 ∧ header.length = 1) ∧
      List.Lex (fun a b => a = false ∧ b = true) [false, true] [true, false] := by
  intro formula stale options row
  have two : formula.symbols.length = 2 := by decide +kernel
  have few : formula.symbols.length ≤ 63 := two ▸ by decide
  have fewer : formula.symbols.length ≤ min options.maxSymbols 63 := two ▸ by decide
  have ofTrue : Text.OneLine options.trueText := by decide
  have ofFalse : Text.OneLine options.falseText := by decide
  have each : ∀ part ∈ formula.subformulas, Text.OneLine part.written := by decide
  obtain ⟨rows, -, -, lines, -, ordered⟩ := reversals_permute formula stale options few
  obtain ⟨turned, mirrored, -, -⟩ := rows 1 (two ▸ by decide)
  obtain ⟨text, text', evaluated, evaluated', header, rule, lines, made, made', split, split',
    counted, one⟩ := lines rfl fewer ofTrue ofFalse
  have lex := ordered rfl rfl 1 2 (by decide) (two ▸ by decide)
  have first : formula.symbols.map
      (Valuation.ofRow options.toRowOrder formula.symbols (UInt64.ofNat 1)).value =
        [false, true] := by
    decide +kernel
  have second : formula.symbols.map
      (Valuation.ofRow options.toRowOrder formula.symbols (UInt64.ofNat 2)).value =
        [true, false] := by
    decide +kernel
  rw [two] at turned mirrored counted
  exact ⟨few, fewer, ofTrue, ofFalse, turned, mirrored, ⟨text, text', evaluated, evaluated',
    header, rule, lines, made, made', split, split', counted, one each⟩, second ▸ first ▸ lex⟩

end Worksheet

end TruthTable
