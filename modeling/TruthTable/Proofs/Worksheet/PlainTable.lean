import TruthTable.Proofs.Grid.PlainLines
import TruthTable.Proofs.Worksheet.CellTexts

/-!
# Tables in plain text

The columns of a table in plain text have places of their own: they follow from the widths of the
header cells and of the texts for truth values. If no name, no spelling and no text for a truth
value has a blank, then every line shows its cells at these places, and nothing but the bar between
them (`Worksheet.plainShows_table`).
-/

namespace TruthTable.Worksheet

theorem length_display_le (options : Options) (value : Bool) :
    (options.display value).length ≤ options.valueWidth := by
  cases value
  · exact Nat.le_max_right ..
  · exact Nat.le_max_left ..

/-- A table in plain text is aligned and loses nothing. With as many symbols as are supported, no
name, no spelling and no text for a truth value with a blank, there are two lines more than rows,
and none ends with a blank. Each column is as wide as its header cell and the texts for truth
values need. In these columns the first line shows the header, the second one is the rule, and the
line of each row shows the cells of the row, one in each column. -/
theorem plainShows_table (formula : Formula) (truth : Vector Bool formula.arena.size)
    (options : Options) (plain : options.format = .plain) (unbroken : formula.Unbroken)
    (values : options.Unbroken) (few : formula.symbols.length ≤ min options.maxSymbols 63) :
    let sheet := ofTruth formula truth
    let symbolCount := formula.symbols.length
    let rowCount := 2 ^ symbolCount
    let row (r : Nat) : List String := (sheet.row options (UInt64.ofNat r)).1
    let widths : List Nat := (sheet.header .plain).map fun cell =>
      max cell.length (max options.trueText.length options.falseText.length)
    ∃ text evaluated lines, sheet.table options = .ok (text, evaluated) ∧
      Text.split "\n" text = lines ++ [""] ∧ lines.length = rowCount + 2 ∧
      (∀ line ∈ lines, ∀ c, line.toList.getLast? = some c → Text.isBlank c = false) ∧
      (∃ line, lines[0]? = some line ∧
        Grid.PlainShows symbolCount widths (sheet.header .plain) line) ∧
      (∃ line, lines[1]? = some line ∧ Grid.PlainRuled symbolCount widths line) ∧
      (∀ r < rowCount, ∃ line, lines[r + 2]? = some line ∧
        Grid.PlainShows symbolCount widths (row r) line) ∧
      (sheet.header .plain).length = symbolCount + formula.size ∧
      ∀ r < rowCount, (row r).length = symbolCount + formula.size := by
  intro sheet symbolCount rowCount row widths
  let grid := freshGrid formula options
  have rendered : grid.render options = grid.plain options.valueWidth := by rw [Grid.render, plain]
  have header : grid.header = sheet.header .plain := congrArg sheet.header plain
  have columns : grid.plainWidths options.valueWidth = widths := by
    rw [Grid.plainWidths, header]
    rfl
  have headerLength : grid.header.length = symbolCount + formula.size := length_header formula _
  have rowLength (r : Nat) : (row r).length = symbolCount + formula.size := length_row truth _ _
  have rowsLength : grid.rows.length = rowCount := length_rows_freshGrid formula options
  have rows {r : Nat} (inside : r < rowCount) : grid.rows[r]? = some (row r) :=
    getElem?_rows_freshGrid truth options inside
  have short (r : Nat) : ∀ cell ∈ row r, cell.length ≤ options.valueWidth := fun cell mem => by
    obtain ⟨value, rfl⟩ := mem_row mem
    exact length_display_le options value
  have more : grid.symbolCount < grid.header.length :=
    headerLength ▸ Nat.lt_add_of_pos_right formula.size_pos
  obtain ⟨headerUnbroken, rowsUnbroken⟩ := unbroken_freshGrid unbroken values
  refine ⟨_, _, grid.plainLines options.valueWidth, table_of_le truth few,
    rendered ▸ Grid.split_plain headerUnbroken rowsUnbroken _, ?_,
    fun line mem c => Grid.isBlank_of_getLast?_plainLines mem, ?_, ?_, fun r inside => ?_,
    header ▸ headerLength, fun r _ => rowLength r⟩
  · rw [Grid.length_plainLines, rowsLength]
  · rw [← header, ← columns]
    exact Grid.plainShows_header _ more headerUnbroken
  · rw [← columns]
    exact Grid.plainRuled_second _ more
  · rw [← columns]
    exact Grid.plainShows_row _ more (rows inside) ((rowLength r).trans headerLength.symm) (short r)
      (rowsUnbroken _ (List.mem_of_getElem? (rows inside)))

/-- False is shown by nothing, so the line of the first row ends with its last `yes`. -/
theorem plainShows_table_of_empty_text :
    let formula : Formula := .binary .implies "->" (.symbol "p") (.not "!" (.symbol "q"))
    let stale := Vector.replicate _ true
    let options : Options := { trueText := "yes", falseText := "", format := .plain }
    let widths := [3, 3, 3, 3, 3, 3]
    options.format = .plain ∧ formula.Unbroken ∧ options.Unbroken ∧
      formula.symbols.length ≤ min options.maxSymbols 63 ∧
      ∃ text evaluated lines, (ofTruth formula stale).table options = .ok (text, evaluated) ∧
        Text.split "\n" text = lines ++ [""] ∧ lines.length = 6 ∧
        (∃ line, lines[0]? = some line ∧
          Grid.PlainShows 2 widths ["p", "q", "(p", "→", "¬", "q)"] line) ∧
        (∃ line, lines[1]? = some line ∧ Grid.PlainRuled 2 widths line) ∧
        ∃ line, lines[2]? = some line ∧
          Grid.PlainShows 2 widths ["", "", "", "yes", "yes", ""] line := by
  intro formula stale options widths
  have unbroken : formula.Unbroken := by decide
  have values : options.Unbroken := by decide
  have two : formula.symbols.length = 2 := by decide +kernel
  have few : formula.symbols.length ≤ min options.maxSymbols 63 := two ▸ by decide
  have header : (ofTruth formula stale).header .plain = ["p", "q", "(p", "→", "¬", "q)"] := by
    decide +kernel
  have row0 : ((ofTruth formula stale).row options (UInt64.ofNat 0)).1 =
      ["", "", "", "yes", "yes", ""] := by
    decide +kernel
  have wide : ["p", "q", "(p", "→", "¬", "q)"].map (fun cell =>
      max cell.length (max options.trueText.length options.falseText.length)) = widths := by
    decide +kernel
  obtain ⟨text, evaluated, lines, made, split, count, -, first, rule, rows, -⟩ :=
    plainShows_table formula stale options rfl unbroken values few
  rw [two] at count first rule rows
  rw [header, wide] at first rule rows
  exact ⟨rfl, unbroken, values, few, text, evaluated, lines, made, split, count, first, rule,
    row0 ▸ rows 0 (by decide)⟩

end TruthTable.Worksheet
