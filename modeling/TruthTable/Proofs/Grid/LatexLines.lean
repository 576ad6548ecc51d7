import Mathlib.Data.List.Basic
import TruthTable.Grid
import TruthTable.Proofs.Text.ReadingBack

/-!
# The lines of an array

The rows of a grid are joined to lines and the lines to a text, and the line of the last row ends
in another way than the rest. If no cell has a blank, nothing is lost: the text is split into its
lines (`Grid.split_latex`), and a line into its cells (`Grid.latexShows_latexCells`). A cell may be
empty, or be the sign between two cells: the separator starts with a space, and no cell has one.
-/

namespace TruthTable

/-- All elements but the last are mapped in one way, and the last one in another. -/
theorem map_dropLast_append_map_getLast? {α β : Type} (f g : α → β) (list : List α) :
    list.dropLast.map f ++ list.getLast?.toList.map g =
      list.mapIdx fun i a => if i + 1 < list.length then f a else g a := by
  induction list with
  | nil => rfl
  | cons a list ih =>
    cases list with
    | nil => rfl
    | cons b list =>
      have more : 0 + 1 < (a :: b :: list).length := Nat.succ_lt_succ (Nat.succ_pos _)
      rw [List.dropLast_cons_cons, List.getLast?_cons_cons, List.map_cons, List.cons_append, ih,
        List.mapIdx_cons (a := a), if_pos more]
      simp only [List.length_cons, Nat.add_lt_add_iff_right]

namespace Grid

/-- A line shows cells: without its indent and its ending it is split into them. -/
def LatexShows (ending : String) (cells : List String) (line : String) : Prop :=
  ∃ body, line = "    " ++ body ++ ending ∧ Text.split " & " body = cells

variable {grid : Grid}

/-- The line of a row. -/
def latexRow (grid : Grid) (r : Nat) (cells : List String) : String :=
  if r + 1 < grid.rows.length then latexCells cells ++ "\\\\" else latexCells cells

/-- The lines of the rows stand between two lines in front and one behind. -/
theorem latexLines_eq (grid : Grid) :
    grid.latexLines =
      ["\\begin\x7barray\x7d\x7b" ++ grid.latexColumns ++ "\x7d",
        latexCells grid.header ++ "\\\\ \\hline"] ++
      grid.rows.mapIdx grid.latexRow ++ ["\\end\x7barray\x7d"] := by
  rw [latexLines, List.append_assoc [_, _], map_dropLast_append_map_getLast?]
  rfl

theorem length_latexLines (grid : Grid) : grid.latexLines.length = grid.rows.length + 3 := by
  rw [latexLines_eq, List.length_append, List.length_append, List.length_mapIdx]
  simp only [List.length_cons, List.length_nil]
  omega

/-- The first line has a column for each symbol and each node, with a bar behind those of the
symbols. -/
theorem getElem?_latexLines_zero (grid : Grid) :
    grid.latexLines[0]? = some ("\\begin\x7barray\x7d\x7b" ++
      (Text.repeated grid.symbolCount 'c' ++ (if grid.symbolCount = 0 then "" else "|") ++
        Text.repeated grid.nodeCount 'c') ++ "\x7d") := by
  refine congrArg (fun columns => some ("\\begin\x7barray\x7d\x7b" ++ columns ++ "\x7d")) ?_
  unfold latexColumns
  split
  case isTrue none =>
    rw [none]
    rfl
  case isFalse => rfl

theorem getElem?_latexLines_row {r : Nat} {cells : List String} (row : grid.rows[r]? = some cells) :
    grid.latexLines[r + 2]? = some (grid.latexRow r cells) := by
  have inside : r < (grid.rows.mapIdx grid.latexRow).length := by
    rw [List.length_mapIdx]
    exact (List.getElem?_eq_some_iff.mp row).1
  rw [latexLines_eq, List.append_assoc]
  show (grid.rows.mapIdx grid.latexRow ++ _)[r]? = _
  rw [List.getElem?_append_left inside, List.getElem?_mapIdx, row]
  rfl

theorem getElem?_latexLines_last (grid : Grid) :
    grid.latexLines[grid.rows.length + 2]? = some "\\end\x7barray\x7d" := by
  rw [latexLines_eq, List.append_assoc]
  show (grid.rows.mapIdx grid.latexRow ++ _)[grid.rows.length]? = _
  rw [← List.length_mapIdx (f := grid.latexRow), List.getElem?_concat_length]

/-! ## Splitting a line -/

theorem latexShows_latexCells {cells : List String} (unbroken : ∀ cell ∈ cells, Text.Unbroken cell)
    (nonempty : cells ≠ []) (ending : String) :
    LatexShows (" " ++ ending) cells (latexCells cells ++ ending) := by
  refine ⟨" & ".intercalate cells, ?_, ?_⟩
  · simp only [latexCells, String.append_assoc]
  · exact Text.split_intercalate rfl
      (fun cell among mem => (unbroken cell among).ne_of_mem mem (by decide) rfl) nonempty

/-- The second line is split into the cells of the header. -/
theorem latexShows_header (unbroken : ∀ cell ∈ grid.header, Text.Unbroken cell)
    (nonempty : grid.header ≠ []) :
    ∃ line, grid.latexLines[1]? = some line ∧ LatexShows " \\\\ \\hline" grid.header line :=
  ⟨_, rfl, latexShows_latexCells unbroken nonempty "\\\\ \\hline"⟩

/-- The line of a row is split into its cells. -/
theorem latexShows_row {r : Nat} {cells : List String} (row : grid.rows[r]? = some cells)
    (unbroken : ∀ cell ∈ cells, Text.Unbroken cell) (nonempty : cells ≠ []) :
    ∃ line, grid.latexLines[r + 2]? = some line ∧
      LatexShows (if r + 1 < grid.rows.length then " \\\\" else " ") cells line := by
  refine ⟨_, getElem?_latexLines_row row, ?_⟩
  unfold latexRow
  split
  case isTrue => exact latexShows_latexCells unbroken nonempty "\\\\"
  case isFalse =>
    have shown := latexShows_latexCells unbroken nonempty ""
    rwa [String.append_empty, String.append_empty] at shown

/-! ## Splitting the text -/

theorem oneLine_latexColumns (grid : Grid) : Text.OneLine grid.latexColumns := by
  have columns (count : Nat) : Text.OneLine (Text.repeated count 'c') :=
    Text.all_repeated (by decide) count
  unfold latexColumns
  split
  case isTrue => exact columns _
  case isFalse =>
    exact Text.all_append.mpr ⟨Text.all_append.mpr ⟨columns _, by decide⟩, columns _⟩

theorem oneLine_latexCells {cells : List String}
    (unbroken : ∀ cell ∈ cells, Text.Unbroken cell) : Text.OneLine (latexCells cells) := by
  have joined : Text.OneLine (" & ".intercalate cells) :=
    Text.all_intercalate (by decide) fun cell mem => (unbroken cell mem).oneLine
  exact Text.all_append.mpr ⟨Text.all_append.mpr ⟨by decide, joined⟩, by decide⟩

/-- An array of cells without blanks is split into its lines. -/
theorem split_latex (headerUnbroken : ∀ cell ∈ grid.header, Text.Unbroken cell)
    (rowsUnbroken : ∀ cells ∈ grid.rows, ∀ cell ∈ cells, Text.Unbroken cell) :
    Text.split "\n" grid.latex = grid.latexLines ++ [""] := by
  refine Text.split_ofLines ?_
  rw [latexLines_eq, List.forall_mem_append, List.forall_mem_append, List.forall_mem_cons,
    List.forall_mem_singleton, List.forall_mem_singleton]
  refine ⟨⟨⟨?_, ?_⟩, fun line mem => ?_⟩, by decide⟩
  · exact Text.all_append.mpr
      ⟨Text.all_append.mpr ⟨by decide, grid.oneLine_latexColumns⟩, by decide⟩
  · exact Text.all_append.mpr ⟨oneLine_latexCells headerUnbroken, by decide⟩
  · obtain ⟨r, inside, rfl⟩ := List.mem_mapIdx.mp mem
    have cells := oneLine_latexCells (rowsUnbroken _ (List.getElem_mem inside))
    unfold latexRow
    split
    case isTrue => exact Text.all_append.mpr ⟨cells, by decide⟩
    case isFalse => exact cells

end Grid

end TruthTable
