import TruthTable.Proofs.Valuation.Rows
import TruthTable.Proofs.Worksheet.Sweep
import TruthTable.Worksheet.Table

/-!
# The cells of a row

A row of a table shows two kinds of values. In front are the values of the symbols, read off the
bits of the row number. Behind them are the values of the nodes in reading order, which come out of
an arena that is laid out level by level. The reading order of the arena is that of the formula, so
these are the values of the subformulas as they are read (`Worksheet.cells_evaluate`).

The cells of a row do not depend on what the worksheet was evaluated for before.
-/

namespace TruthTable.Worksheet

/-- After an evaluation the cells of the nodes show the values of the subformulas. -/
theorem cells_evaluate (sheet : Worksheet) (options : Options) (valuation : Valuation) :
    (sheet.evaluate valuation).cells options valuation =
      sheet.symbols.map (fun name => options.display (valuation.value name)) ++
        (sheet.arena.formulaAt sheet.root).subformulas.map fun part =>
          options.display (part.evaluate valuation) := by
  have nodes (i : Fin sheet.arena.size) :
      (sheet.evaluate valuation).truth.get i = (sheet.arena.formulaAt i).evaluate valuation :=
    sheet.arena.get_sweep valuation sheet.truth i
  rw [← Arena.map_formulaAt_readingOrder, List.map_map]
  refine congrArg (_ ++ ·) (List.map_congr_left fun i _ => ?_)
  exact congrArg options.display (nodes i)

/-- The cells of a row are the values of the columns and of the subformulas. -/
theorem row_fst_ofFormula (formula : Formula) (truth : Vector Bool formula.arena.size)
    (options : Options) (row : UInt64) :
    (({ ofFormula formula with truth := truth } : Worksheet).row options row).1 =
      (List.range formula.symbols.length).map (fun column =>
        options.display (options.value formula.symbols.length row column)) ++
        formula.subformulas.map fun part =>
          options.display (part.evaluate (.ofRow options.toRowOrder formula.symbols row)) := by
  have columns := congrArg (List.map options.display)
    (Valuation.map_value_ofRow options.toRowOrder row formula.nodup_symbols)
  rw [List.map_map, List.map_map] at columns
  have nodes := congrArg Formula.subformulas formula.formulaAt_arena
  refine (cells_evaluate _ options _).trans ?_
  exact congrArg₂ (· ++ ·) columns (congrArg (List.map _) nodes)

/-- A row has one cell for each symbol and each node, whatever the worksheet of the formula was
evaluated for before. The symbols are the names that occur, in increasing order. The cell of a
symbol shows its bit of the row number, inverted if the rows are reversed, and the valuation of the
row gives exactly the symbols these values. The cells behind them show the subformulas in reading
order, under that valuation. -/
theorem row_cells (formula : Formula) (few : formula.symbols.length < 2 ^ 32)
    (truth : Vector Bool formula.arena.size) (options : Options) (row : UInt64) :
    let sheet : Worksheet := { ofFormula formula with truth := truth }
    let valuation := sheet.valuation options.toRowOrder row
    let bit (column : Nat) : Bool :=
      row.toNat.testBit
        (if options.reverseColumns then formula.symbols.length - 1 - column else column)
    let value (column : Nat) : Bool := bit column ^^ options.reverseRows
    (formula.symbols.Pairwise (· < ·) ∧ ∀ name, name ∈ formula.symbols ↔ name ∈ formula.names) ∧
      (∀ column name, formula.symbols[column]? = some name →
        valuation[name]? = some (value column)) ∧
      (∀ name, name ∈ valuation ↔ name ∈ formula.symbols) ∧
      (sheet.row options row).1.length = formula.symbols.length + formula.size ∧
      (sheet.row options row).1 =
        (List.range formula.symbols.length).map (fun column => options.display (value column)) ++
          formula.subformulas.map fun part => options.display (part.evaluate valuation) := by
  intro sheet valuation bit value
  have values {column : Nat} (inside : column < formula.symbols.length) :
      options.value formula.symbols.length row column = value column :=
    RowOrder.value_eq row few.le inside
  have cells : (sheet.row options row).1 =
      (List.range formula.symbols.length).map (fun column => options.display (value column)) ++
        formula.subformulas.map fun part => options.display (part.evaluate valuation) := by
    refine (row_fst_ofFormula formula truth options row).trans (congrArg (· ++ _) ?_)
    exact List.map_congr_left fun column inside =>
      congrArg options.display (values (List.mem_range.mp inside))
  refine ⟨⟨formula.pairwise_symbols, fun name => Formula.mem_symbols⟩, ?_,
    fun name => Valuation.mem_ofRow, ?_, cells⟩
  · intro column name head
    rw [← values (List.getElem?_eq_some_iff.mp head).1]
    exact Valuation.getElem?_ofRow formula.nodup_symbols head
  · rw [cells, List.length_append, List.length_map, List.length_map, List.length_range,
      formula.length_subformulas]

/-- A row beyond the last one, with both orders reversed, on a worksheet of stale values: the first
symbol takes the second bit of 5, and the second symbol the first. -/
theorem row_cells_of_stale :
    let formula : Formula := .binary .implies "->" (.symbol "q") (.not "!" (.symbol "p"))
    let stale : Worksheet := { ofFormula formula with truth := Vector.replicate _ true }
    let options : Options :=
      { reverseColumns := true, reverseRows := true, trueText := "T", falseText := "F" }
    formula.symbols.length < 2 ^ 32 ∧
      (stale.row options 5).1 = ["T", "F", "F", "T", "F", "T"] := by
  intro formula stale options
  have few : formula.symbols.length < 2 ^ 32 := by decide +kernel
  obtain ⟨-, -, -, -, cells⟩ := row_cells formula few (Vector.replicate _ true) options 5
  exact ⟨few, cells.trans (by decide +kernel)⟩

end TruthTable.Worksheet
