import Mathlib.Algebra.GroupWithZero.Nat
import TruthTable.Proofs.Worksheet.Sweep
import TruthTable.Worksheet.Table

/-!
# Old values leave no trace

A worksheet is used again for each row, and its values are written over in place. Everything that
evaluates it starts with a whole sweep, so what it answers and what it leaves behind are those of a
new worksheet of the formula: for one valuation (`Worksheet.evaluate_ofTruth`), for one row
(`row_ofTruth`), for all rows in turn (`rows_ofTruth`), and for the table (`table_of_le`). A table
that is refused does not evaluate anything (`table_of_lt`).
-/

namespace TruthTable.Worksheet

variable {formula : Formula} {truth : Vector Bool formula.arena.size} {options : Options}

/-- The worksheet of a formula, with any truth values. -/
def ofTruth (formula : Formula) (truth : Vector Bool formula.arena.size) : Worksheet :=
  { ofFormula formula with truth := truth }

theorem evaluate_ofTruth (valuation : Valuation) :
    (ofTruth formula truth).evaluate valuation = (ofFormula formula).evaluate valuation := by
  rw [evaluate_eq, evaluate_eq]
  rfl

theorem evaluateRow_ofTruth (order : RowOrder) (row : UInt64) :
    (ofTruth formula truth).evaluateRow order row = (ofFormula formula).evaluateRow order row :=
  evaluate_ofTruth _

theorem row_ofTruth (row : UInt64) :
    (ofTruth formula truth).row options row = (ofFormula formula).row options row := by
  show (((ofTruth formula truth).evaluate _).cells options _,
    (ofTruth formula truth).evaluate _) = _
  rw [evaluate_ofTruth]
  rfl

/-- A row does not depend on the evaluation before. -/
theorem row_evaluate (valuation : Valuation) (row : UInt64) :
    ((ofFormula formula).evaluate valuation).row options row =
      (ofFormula formula).row options row :=
  row_ofTruth row

/-! ## Row after row -/

/-- One row more is taken on the worksheet that the rows before it have left. -/
theorem rows_succ (sheet : Worksheet) (options : Options) (count : Nat) :
    sheet.rows options (count + 1) =
      ((sheet.rows options count).1.push
          ((sheet.rows options count).2.row options (UInt64.ofNat count)).1,
        ((sheet.rows options count).2.row options (UInt64.ofNat count)).2) := by
  rw [rows, Nat.fold_succ]
  rfl

/-- The cells of the first rows, each of them on a new worksheet. -/
def rowCells (formula : Formula) (options : Options) (count : Nat) : List (List String) :=
  (List.range count).map fun r => ((ofFormula formula).row options (UInt64.ofNat r)).1

theorem rowCells_succ (formula : Formula) (options : Options) (count : Nat) :
    rowCells formula options (count + 1) =
      rowCells formula options count ++
        [((ofFormula formula).row options (UInt64.ofNat count)).1] := by
  rw [rowCells, List.range_succ, List.map_append, List.map_singleton, ← rowCells]

theorem length_rowCells (formula : Formula) (options : Options) (count : Nat) :
    (rowCells formula options count).length = count := by
  rw [rowCells, List.length_map, List.length_range]

theorem getElem?_rowCells {count r : Nat} (inside : r < count) :
    (rowCells formula options count)[r]? =
      some ((ofFormula formula).row options (UInt64.ofNat r)).1 := by
  rw [rowCells, List.getElem?_map, List.getElem?_range inside]
  rfl

/-- All rows have the cells that they have on a new worksheet, and the last one leaves its values
behind. -/
theorem rows_ofTruth (truth : Vector Bool formula.arena.size) (options : Options) (count : Nat) :
    (ofTruth formula truth).rows options (count + 1) =
      ((rowCells formula options (count + 1)).toArray,
        (ofFormula formula).evaluateRow options.toRowOrder (UInt64.ofNat count)) := by
  induction count with
  | zero =>
    rw [rows_succ]
    show (#[].push ((ofTruth formula truth).row options 0).1,
      ((ofTruth formula truth).row options 0).2) = _
    rw [row_ofTruth]
    rfl
  | succ count ih =>
    rw [rows_succ, ih, evaluateRow, row_evaluate, List.push_toArray, ← rowCells_succ]
    rfl

/-! ## The table -/

/-- The cells of the table of a formula. -/
def freshGrid (formula : Formula) (options : Options) : Grid :=
  ⟨formula.symbols.length, (ofFormula formula).size, (ofFormula formula).header options.format,
    rowCells formula options (2 ^ formula.symbols.length)⟩

/-- The number of the last row of a table over `count` symbols. -/
def lastRow (count : Nat) : UInt64 :=
  UInt64.ofNat (2 ^ count - 1)

theorem grid_ofTruth (options : Options) :
    (ofTruth formula truth).grid options =
      (freshGrid formula options,
        (ofFormula formula).evaluateRow options.toRowOrder (lastRow formula.symbols.length)) := by
  have oneMore : 2 ^ formula.symbols.length - 1 + 1 = 2 ^ formula.symbols.length :=
    Nat.sub_add_cancel Nat.one_le_two_pow
  have run := rows_ofTruth truth options (2 ^ formula.symbols.length - 1)
  rw [oneMore] at run
  show (Grid.mk _ _ _ ((ofTruth formula truth).rows options (2 ^ formula.symbols.length)).1.toList,
    ((ofTruth formula truth).rows options (2 ^ formula.symbols.length)).2) = _
  rw [run]
  rfl

/-- A table with few enough symbols is that of a new worksheet, and leaves the values of its last
row behind. -/
theorem table_of_le (truth : Vector Bool formula.arena.size)
    (few : formula.symbols.length ≤ options.symbolLimit) :
    (ofTruth formula truth).table options =
      .ok ((freshGrid formula options).render options,
        (ofFormula formula).evaluateRow options.toRowOrder (lastRow formula.symbols.length)) := by
  have limit : (ofTruth formula truth).symbols.length ≤ options.symbolLimit := few
  rw [table, if_pos limit, grid_ofTruth]

/-- A table with too many symbols is refused, and nothing is evaluated. -/
theorem table_of_lt {sheet : Worksheet} (many : options.symbolLimit < sheet.symbols.length) :
    sheet.table options = .error (.tooManySymbols sheet.symbols.length options.symbolLimit) := by
  rw [table, if_neg (Nat.not_le.mpr many)]

end TruthTable.Worksheet
