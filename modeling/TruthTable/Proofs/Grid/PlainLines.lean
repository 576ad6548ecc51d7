import Mathlib.Data.List.Forall2
import TruthTable.Proofs.Grid.ColumnLayout
import TruthTable.Proofs.Text.ReadingBack

/-!
# The lines of a table in plain text

The line of the header, the rule, and the lines of the rows are put together in different ways, and
blanks are cut off at the end. All columns still start at the same places in all lines. A line is
filled up with spaces again (`Text.padEnd_trimEnd`), since cells without blanks bring no other
blanks into it. Then it is the line that was laid out, and shows each cell in its column
(`Grid.plainShows_plainCells`). The rule is as wide as all columns together
(`Grid.plainRuled_plainRule`).
-/

namespace TruthTable.Grid

/-- A line shows cells in columns. Filled up with spaces it has each cell alone in its column, the
bar in front of the first column behind the symbols, and spaces elsewhere. -/
structure PlainShows (symbolCount : Nat) (widths : List Nat) (cells : List String)
    (line : String) : Prop where
  fits : line.length ≤ lineWidth symbolCount widths
  cell : ∀ k width cell, widths[k]? = some width → cells[k]? = some cell →
    Text.trim (Text.window (columnStart symbolCount widths k) width
      (Text.padEnd (lineWidth symbolCount widths) line)) = cell
  bar : 0 < symbolCount →
    (Text.padEnd (lineWidth symbolCount widths) line).toList[barPlace symbolCount widths]? =
      some '|'
  gap : ∀ p < lineWidth symbolCount widths, (∀ k, ¬ InColumn symbolCount widths k p) →
    (0 < symbolCount → p ≠ barPlace symbolCount widths) →
      (Text.padEnd (lineWidth symbolCount widths) line).toList[p]? = some ' '

/-- A line is a rule: as wide as all columns, with a cross where the lines of cells have the bar. -/
structure PlainRuled (symbolCount : Nat) (widths : List Nat) (line : String) : Prop where
  width : line.length = lineWidth symbolCount widths
  cross : 0 < symbolCount → line.toList[barPlace symbolCount widths]? = some '+'
  hyphen : ∀ p < lineWidth symbolCount widths,
    (0 < symbolCount → p ≠ barPlace symbolCount widths) → line.toList[p]? = some '-'

variable {grid : Grid} {widths : List Nat} {cells : List String}

theorem all_plainJoin {P : Char → Prop} {gap bar : String} {columns : List String}
    (ofGap : Text.All P gap) (ofBar : Text.All P bar)
    (each : ∀ column ∈ columns, Text.All P column) :
    Text.All P (grid.plainJoin gap bar columns) := by
  unfold plainJoin
  split
  case isTrue => exact Text.all_intercalate ofGap each
  case isFalse =>
    refine Text.all_append.mpr ⟨Text.all_append.mpr ⟨?_, ofBar⟩, ?_⟩
    · exact Text.all_intercalate ofGap fun column mem => each column (List.mem_of_mem_take mem)
    · exact Text.all_intercalate ofGap fun column mem => each column (List.mem_of_mem_drop mem)

/-! ## Lines of cells -/

/-- The line before blanks are cut off. -/
def plainFull (grid : Grid) (widths : List Nat) (cells : List String) : String :=
  grid.plainJoin " " " | " (List.zipWith Text.centre widths cells)

theorem all_plainFull {P : Char → Prop} (space : P ' ') (bar : P '|')
    (each : ∀ cell ∈ cells, Text.All P cell) : Text.All P (grid.plainFull widths cells) := by
  have gap : Text.All P " " := List.forall_mem_singleton.mpr space
  have beforeNodes : Text.All P " | " :=
    List.forall_mem_cons.mpr ⟨space, List.forall_mem_cons.mpr ⟨bar, gap⟩⟩
  refine all_plainJoin gap beforeNodes fun column mem => ?_
  obtain ⟨k, found⟩ := List.mem_iff_getElem?.mp mem
  obtain ⟨width, cell, -, here, rfl⟩ := List.getElem?_zipWith_eq_some.mp found
  exact Text.all_centre space (each cell (List.mem_of_getElem? here)) width

theorem spaced_plainFull (unbroken : ∀ cell ∈ cells, Text.Unbroken cell) :
    Text.Spaced (grid.plainFull widths cells) :=
  all_plainFull (fun _ => rfl) (by decide) fun cell mem => (unbroken cell mem).spaced

/-- If all cells fit their columns, then the columns have their widths. -/
theorem map_length_zipWith_centre
    (fits : List.Forall₂ (fun width (cell : String) => cell.length ≤ width) widths cells) :
    (List.zipWith Text.centre widths cells).map String.length = widths := by
  induction fits with
  | nil => rfl
  | cons fit _ ih =>
    rw [List.zipWith_cons_cons, List.map_cons, ih, Text.length_centre, Nat.max_eq_left fit]

theorem plainShows_plainCells (more : grid.symbolCount < widths.length)
    (fits : List.Forall₂ (fun width (cell : String) => cell.length ≤ width) widths cells)
    (unbroken : ∀ cell ∈ cells, Text.Unbroken cell) :
    PlainShows grid.symbolCount widths cells (grid.plainCells widths cells) := by
  let columns := List.zipWith Text.centre widths cells
  have lengths : columns.map String.length = widths := map_length_zipWith_centre fits
  have more : grid.symbolCount < columns.length := by
    rwa [← List.length_map String.length, lengths]
  have full : (grid.plainFull widths cells).toList = layOut grid.symbolCount ' ' '|' 0 columns :=
    toList_plainJoin rfl rfl more
  have width : (grid.plainFull widths cells).length = lineWidth grid.symbolCount widths := by
    rw [← String.length_toList, full, length_layOut more, lengths]
  have padded : Text.padEnd (lineWidth grid.symbolCount widths) (grid.plainCells widths cells) =
      grid.plainFull widths cells := by
    rw [← width]
    exact Text.padEnd_trimEnd (spaced_plainFull unbroken)
  have columnWidth {k width : Nat} {column : String} (found : columns[k]? = some column)
      (inWidths : widths[k]? = some width) : column.length = width := by
    rw [← lengths, List.getElem?_map, found] at inWidths
    exact Option.some.inj inWidths
  refine ⟨?_, fun k width cell inWidths inCells => ?_, fun withSymbols => ?_,
    fun p inside outside apart => ?_⟩
  · rw [← width]
    exact Text.length_trimEnd_le _
  · have column : columns[k]? = some (Text.centre width cell) :=
      List.getElem?_zipWith_eq_some.mpr ⟨width, cell, inWidths, inCells, rfl⟩
    have cut := take_drop_layOut grid.symbolCount ' ' '|' column
    rw [lengths, columnWidth column inWidths] at cut
    rw [padded, Text.window, full, cut, String.ofList_toList]
    exact Text.trim_centre (unbroken cell (List.mem_of_getElem? inCells)) width
  · rw [padded, full, ← lengths]
    exact getElem?_layOut_bar withSymbols more
  · rw [padded, full]
    refine getElem?_layOut_gap ?_ (lengths.symm ▸ outside) (lengths.symm ▸ apart)
    rwa [length_layOut more, lengths]

/-! ## The rule -/

theorem plainRuled_plainRule (more : grid.symbolCount < widths.length) :
    PlainRuled grid.symbolCount widths (grid.plainRule widths) := by
  let columns := widths.map (Text.repeated · '-')
  have lengths : columns.map String.length = widths := by
    rw [List.map_map]
    exact (List.map_congr_left fun width _ => Text.length_repeated width '-').trans
      (List.map_id widths)
  have more : grid.symbolCount < columns.length := by rwa [List.length_map]
  have rule : (grid.plainRule widths).toList = layOut grid.symbolCount '-' '+' 0 columns :=
    toList_plainJoin rfl rfl more
  have width : (layOut grid.symbolCount '-' '+' 0 columns).length =
      lineWidth grid.symbolCount widths := by
    rw [length_layOut more, lengths]
  refine ⟨?_, fun withSymbols => ?_, fun p inside apart => ?_⟩
  · rw [← String.length_toList, rule, width]
  · rw [rule, ← lengths]
    exact getElem?_layOut_bar withSymbols more
  · rw [rule]
    by_cases among : ∃ k, InColumn grid.symbolCount widths k p
    · obtain ⟨k, within⟩ := among
      rw [← lengths] at within
      obtain ⟨column, mem, c, inside, here⟩ := exists_of_inColumn '-' '+' within
      obtain ⟨width, -, rfl⟩ := List.mem_map.mp mem
      rw [Text.toList_repeated] at inside
      rw [here, List.eq_of_mem_replicate inside]
    · refine getElem?_layOut_gap (width.symm ▸ inside) ?_ (lengths.symm ▸ apart)
      rw [lengths]
      exact fun k here => among ⟨k, here⟩

/-! ## The lines of a grid -/

/-- The columns of a grid are wide enough for its header. -/
theorem fits_header (grid : Grid) (least : Nat) :
    List.Forall₂ (fun width (cell : String) => cell.length ≤ width) (grid.plainWidths least)
      grid.header := by
  rw [plainWidths, List.forall₂_map_left_iff, List.forall₂_same]
  exact fun cell _ => Nat.le_max_left ..

/-- The columns of a grid are wide enough for texts of the least width. -/
theorem fits_of_length_le {least : Nat} (count : cells.length = grid.header.length)
    (short : ∀ cell ∈ cells, cell.length ≤ least) :
    List.Forall₂ (fun width (cell : String) => cell.length ≤ width) (grid.plainWidths least)
      cells := by
  rw [plainWidths, List.forall₂_map_left_iff, List.forall₂_iff_zip]
  refine ⟨count.symm, fun both => ?_⟩
  exact Nat.le_trans (short _ (List.of_mem_zip both).2) (Nat.le_max_right ..)

theorem length_plainLines (grid : Grid) (least : Nat) :
    (grid.plainLines least).length = grid.rows.length + 2 := by
  rw [plainLines, List.length_cons, List.length_cons, List.length_map]

section

variable (least : Nat) (more : grid.symbolCount < grid.header.length)

include more

private theorem symbolCount_lt_length_plainWidths :
    grid.symbolCount < (grid.plainWidths least).length := by
  rwa [plainWidths, List.length_map]

/-- The first line shows the header. -/
theorem plainShows_header (unbroken : ∀ cell ∈ grid.header, Text.Unbroken cell) :
    ∃ line, (grid.plainLines least)[0]? = some line ∧
      PlainShows grid.symbolCount (grid.plainWidths least) grid.header line :=
  ⟨_, rfl, plainShows_plainCells (symbolCount_lt_length_plainWidths least more)
    (grid.fits_header least) unbroken⟩

/-- The second line is a rule. -/
theorem plainRuled_second :
    ∃ line, (grid.plainLines least)[1]? = some line ∧
      PlainRuled grid.symbolCount (grid.plainWidths least) line :=
  ⟨_, rfl, plainRuled_plainRule (symbolCount_lt_length_plainWidths least more)⟩

/-- The line of a row shows its cells. -/
theorem plainShows_row {r : Nat} (row : grid.rows[r]? = some cells)
    (count : cells.length = grid.header.length) (short : ∀ cell ∈ cells, cell.length ≤ least)
    (unbroken : ∀ cell ∈ cells, Text.Unbroken cell) :
    ∃ line, (grid.plainLines least)[r + 2]? = some line ∧
      PlainShows grid.symbolCount (grid.plainWidths least) cells line := by
  refine ⟨grid.plainCells (grid.plainWidths least) cells, ?_, ?_⟩
  · rw [plainLines, List.getElem?_cons_succ, List.getElem?_cons_succ, List.getElem?_map, row]
    rfl
  · exact plainShows_plainCells (symbolCount_lt_length_plainWidths least more)
      (fits_of_length_le count short) unbroken

end

/-! ## Splitting the text -/

theorem oneLine_plainCells (each : ∀ cell ∈ cells, Text.OneLine cell) :
    Text.OneLine (grid.plainCells widths cells) := fun c mem =>
  all_plainFull (by decide) (by decide) each c (Text.mem_of_mem_trimEnd mem)

theorem unbroken_plainRule (grid : Grid) (widths : List Nat) :
    Text.Unbroken (grid.plainRule widths) := by
  refine all_plainJoin (by decide) (by decide) fun column mem => ?_
  obtain ⟨width, -, rfl⟩ := List.mem_map.mp mem
  exact Text.all_repeated (by decide) width

/-- A table of cells without blanks is split into its lines. -/
theorem split_plain (headerUnbroken : ∀ cell ∈ grid.header, Text.Unbroken cell)
    (rowsUnbroken : ∀ cells ∈ grid.rows, ∀ cell ∈ cells, Text.Unbroken cell) (least : Nat) :
    Text.split "\n" (grid.plain least) = grid.plainLines least ++ [""] := by
  refine Text.split_ofLines (List.forall_mem_cons.mpr ⟨?_,
    List.forall_mem_cons.mpr ⟨(grid.unbroken_plainRule _).oneLine, fun line mem => ?_⟩⟩)
  · exact oneLine_plainCells fun cell mem => (headerUnbroken cell mem).oneLine
  · obtain ⟨cells, among, rfl⟩ := List.mem_map.mp mem
    exact oneLine_plainCells fun cell mem => (rowsUnbroken cells among cell mem).oneLine

/-- If the cells of the rows have no line feeds, then behind the header each line of the grid is a
line of the text. -/
theorem split_plain_of_oneLine (grid : Grid)
    (rowsOneLine : ∀ cells ∈ grid.rows, ∀ cell ∈ cells, Text.OneLine cell) (least : Nat) :
    Text.split "\n" (grid.plain least) =
      Text.split "\n" (grid.plainCells (grid.plainWidths least) grid.header) ++
        grid.plainRule (grid.plainWidths least) ::
          (grid.rows.map (grid.plainCells (grid.plainWidths least)) ++ [""]) := by
  refine Text.split_ofLines_cons _ (List.forall_mem_cons.mpr
    ⟨(grid.unbroken_plainRule _).oneLine, fun line mem => ?_⟩)
  obtain ⟨cells, among, rfl⟩ := List.mem_map.mp mem
  exact oneLine_plainCells (rowsOneLine cells among)

/-- No line ends with a blank. -/
theorem isBlank_of_getLast?_plainLines {least : Nat} {line : String}
    (mem : line ∈ grid.plainLines least) {c : Char} (last : line.toList.getLast? = some c) :
    Text.isBlank c = false := by
  rw [plainLines, List.mem_cons, List.mem_cons] at mem
  obtain rfl | rfl | ofRow := mem
  · exact Text.isBlank_of_getLast?_trimEnd last
  · exact grid.unbroken_plainRule _ c (List.mem_of_getLast? last)
  · obtain ⟨cells, -, rfl⟩ := List.mem_map.mp ofRow
    exact Text.isBlank_of_getLast?_trimEnd last

end TruthTable.Grid
