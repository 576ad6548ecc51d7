import TruthTable.Proofs.Valuation.Rows
import TruthTable.Proofs.Worksheet.Sweep

/-!
# Deciding a formula by its rows

The rows of a truth table stand for all valuations: a value depends on the symbols that occur only,
and some row has any given values for them. So a worksheet that is evaluated for a valuation is the
same, at every node, as one that is evaluated for a row of the table (`exists_evaluateRow_eq`). A
formula is valid exactly if it is true in all rows, and satisfiable exactly if it is true in some
row.

This holds in either order of the columns and of the rows. It needs no more than 64 symbols, one for
each bit of a row number; a table may have 63, so that its rows can be counted too.
-/

namespace TruthTable

namespace Formula

/-- A subformula has no names of its own. -/
theorem names_subset {formula part : Formula} (isPart : part ∈ formula.subformulas) :
    part.names ⊆ formula.names := by
  induction formula with
  | symbol name =>
    obtain rfl := List.mem_singleton.mp isPart
    exact List.Subset.refl _
  | constant value =>
    obtain rfl := List.mem_singleton.mp isPart
    exact List.Subset.refl _
  | not spelling operand ih =>
    rcases List.mem_cons.mp isPart with rfl | inOperand
    · exact List.Subset.refl _
    · exact ih inOperand
  | binary op spelling left right ihLeft ihRight =>
    rcases List.mem_append.mp isPart with inLeft | behind
    · exact List.Subset.trans (ihLeft inLeft) (List.subset_append_left _ _)
    · rcases List.mem_cons.mp behind with rfl | inRight
      · exact List.Subset.refl _
      · exact List.Subset.trans (ihRight inRight) (List.subset_append_right _ _)

/-- Each place of the arena has a subformula. -/
theorem formulaAt_mem_subformulas {formula : Formula} (i : Fin formula.arena.size) :
    formula.arena.formulaAt i ∈ formula.subformulas := by
  rw [← formula.map_formulaAt_readingOrder_root]
  exact List.mem_map_of_mem (formula.mem_readingOrder_root i)

end Formula

namespace Worksheet

variable {formula : Formula}

/-- Valuations that agree on the symbols give every node the same value. -/
theorem evaluate_eq_of_agree {one other : Valuation}
    (agree : ∀ name ∈ formula.symbols, one.value name = other.value name) :
    (ofFormula formula).evaluate one = (ofFormula formula).evaluate other := by
  have same (i : Fin formula.arena.size) :
      (formula.arena.formulaAt i).evaluate one = (formula.arena.formulaAt i).evaluate other := by
    apply Formula.evaluate_congr
    intro name mem
    have occurs := Formula.names_subset (Formula.formulaAt_mem_subformulas i) mem
    exact agree name (Formula.mem_symbols.mpr occurs)
  rw [evaluate_eq, evaluate_eq]
  congr 2
  exact funext same

/-- An evaluation for any valuation is one for some row of the table. -/
theorem exists_evaluateRow_eq (few : formula.symbols.length ≤ 64) (order : RowOrder)
    (valuation : Valuation) :
    ∃ row : UInt64, row.toNat < 2 ^ formula.symbols.length ∧
      (ofFormula formula).evaluateRow order row = (ofFormula formula).evaluate valuation := by
  obtain ⟨row, below, agree⟩ :=
    Valuation.exists_ofRow order formula.nodup_symbols few valuation
  exact ⟨row, below, evaluate_eq_of_agree agree⟩

/-- The rows of the table decide the formula, in any order of rows and columns. For every valuation
there is a row of the table with the same value at every node. So the formula is true in all rows
exactly if it is true under all valuations, and true in some row exactly if it is true under some
valuation. -/
theorem rows_decide (formula : Formula) (few : formula.symbols.length ≤ 63) (order : RowOrder) :
    (∀ valuation, ∃ row : UInt64, row.toNat < 2 ^ formula.symbols.length ∧
      (ofFormula formula).evaluateRow order row = (ofFormula formula).evaluate valuation) ∧
    ((∀ row : UInt64, row.toNat < 2 ^ formula.symbols.length →
        ((ofFormula formula).evaluateRow order row).value = true) ↔
      ∀ valuation, formula.evaluate valuation = true) ∧
    ((∃ row : UInt64, row.toNat < 2 ^ formula.symbols.length ∧
        ((ofFormula formula).evaluateRow order row).value = true) ↔
      ∃ valuation, formula.evaluate valuation = true) := by
  have fits : formula.symbols.length ≤ 64 := few.trans (by decide)
  refine ⟨exists_evaluateRow_eq fits order, ⟨fun inRows valuation => ?_, fun valid row _ => ?_⟩,
    ⟨?_, ?_⟩⟩
  · obtain ⟨row, below, same⟩ := exists_evaluateRow_eq fits order valuation
    have here := inRows row below
    rwa [same, value_evaluate] at here
  · rw [evaluateRow, value_evaluate]
    exact valid _
  · rintro ⟨row, -, here⟩
    rw [evaluateRow, value_evaluate] at here
    exact ⟨_, here⟩
  · rintro ⟨valuation, satisfies⟩
    obtain ⟨row, below, same⟩ := exists_evaluateRow_eq fits order valuation
    refine ⟨row, below, ?_⟩
    rwa [same, value_evaluate]

/-- With both orders reversed, a valuation without `p` and with a name of its own is a row, and a
contraposition is true in all rows. -/
theorem rows_decide_of_contraposition :
    let formula : Formula :=
      .binary .iff "<->" (.binary .implies "->" (.symbol "q") (.symbol "p"))
        (.binary .implies "=>" (.not "!" (.symbol "p")) (.not "~" (.symbol "q")))
    let order : RowOrder := ⟨true, true⟩
    formula.symbols.length ≤ 63 ∧
      (∃ row : UInt64, row.toNat < 2 ^ formula.symbols.length ∧
        (ofFormula formula).evaluateRow order row =
          (ofFormula formula).evaluate (.ofList [("q", true), ("r", true)])) ∧
      (∀ row : UInt64, row.toNat < 2 ^ formula.symbols.length →
        ((ofFormula formula).evaluateRow order row).value = true) ∧
      ∃ row : UInt64, row.toNat < 2 ^ formula.symbols.length ∧
        ((ofFormula formula).evaluateRow order row).value = true := by
  intro formula order
  have few : formula.symbols.length ≤ 63 := by decide +kernel
  have valid (valuation : Valuation) : formula.evaluate valuation = true := by
    simp only [formula, Formula.evaluate]
    cases valuation.value "p" <;> cases valuation.value "q" <;> rfl
  obtain ⟨allRows, always, sometimes⟩ := rows_decide formula few order
  exact ⟨few, allRows _, always.mpr valid, sometimes.mpr ⟨∅, valid ∅⟩⟩

end Worksheet

end TruthTable
