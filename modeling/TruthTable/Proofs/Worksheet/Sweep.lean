import TruthTable.Proofs.Arena.Reconstruction
import TruthTable.Worksheet

/-!
# The values after a sweep

A sweep writes the values of all nodes over older ones, from the last node to the first, and reads
the values that it needs from the same vector. What it reads has been written before: links lead to
later places. So after the sweep has come down to a place, all places from there on have the values
of their formulas (`Arena.Settled`), whatever stood in the vector before the sweep. One step keeps
this (`Arena.settled_set`), the whole sweep reaches the first place (`Arena.get_sweep`), and the
values of a worksheet are those of the subformulas (`Worksheet.evaluate_eq`).
-/

namespace TruthTable

namespace Arena

variable {arena : Arena} {valuation : Valuation} {truth : Vector Bool arena.size}

/-- Whether all places from `bound` on have the values of their formulas. -/
def Settled (arena : Arena) (valuation : Valuation) (truth : Vector Bool arena.size)
    (bound : Nat) : Prop :=
  ∀ i : Fin arena.size, bound ≤ i → truth.get i = (arena.formulaAt i).evaluate valuation

/-- Where the operands have the values of their formulas, the node gets the value of its own. -/
theorem valueAt_of_settled {i : Fin arena.size} (settled : arena.Settled valuation truth (i + 1)) :
    arena.valueAt valuation truth i = (arena.formulaAt i).evaluate valuation := by
  cases h : arena.node i with
  | symbol name => rw [valueAt, h, formulaAt_symbol h, Formula.evaluate]
  | constant value => rw [valueAt, h, formulaAt_constant h, Formula.evaluate]
  | not spelling operand =>
    rw [valueAt, h, formulaAt_not h, Formula.evaluate, ← settled operand.1 operand.2]
  | binary op spelling left right =>
    rw [valueAt, h, formulaAt_binary h, Formula.evaluate, ← settled left.1 left.2,
      ← settled right.1 right.2]

/-- Writing the value of the node in front of the settled places settles it too. -/
theorem settled_set {i : Fin arena.size} (settled : arena.Settled valuation truth (i + 1)) :
    arena.Settled valuation (truth.set i (arena.valueAt valuation truth i) i.isLt) i := by
  intro j behind
  by_cases same : i = j
  · subst same
    rw [← valueAt_of_settled settled]
    exact Vector.getElem_set_self i.isLt
  · have later : i.val + 1 ≤ j.val := Nat.lt_of_le_of_ne behind fun h => same (Fin.ext h)
    rw [← settled j later]
    exact Vector.getElem_set_ne i.isLt j.isLt fun h => same (Fin.ext h)

/-- The rest of a sweep settles the places that are left. -/
theorem settled_foldRev {bound : Nat} (inside : bound ≤ arena.size)
    (settled : arena.Settled valuation truth bound) :
    arena.Settled valuation
      (bound.foldRev (fun i h truth =>
        truth.set i (arena.valueAt valuation truth ⟨i, h.trans_le inside⟩)
          (h.trans_le inside)) truth) 0 := by
  -- The sweep comes down, so its next step writes the last of the places that are left.
  induction bound generalizing truth with
  | zero => exact settled
  | succ bound ih =>
    rw [Nat.foldRev_succ]
    exact ih (Nat.le_of_succ_le inside) (settled_set (i := ⟨bound, inside⟩) settled)

/-- After a sweep each place has the value of its formula. -/
theorem get_sweep (arena : Arena) (valuation : Valuation) (truth : Vector Bool arena.size)
    (i : Fin arena.size) :
    (arena.sweep valuation truth).get i = (arena.formulaAt i).evaluate valuation := by
  have nothingYet : arena.Settled valuation truth arena.size :=
    fun j outside => absurd j.isLt (Nat.not_lt.mpr outside)
  exact settled_foldRev (Nat.le_refl _) nothingYet i (Nat.zero_le _)

end Arena

namespace Worksheet

/-- An evaluation leaves no trace of older values. -/
theorem evaluate_eq (sheet : Worksheet) (valuation : Valuation) :
    sheet.evaluate valuation =
      { sheet with
        truth := Vector.ofFn fun i => (sheet.arena.formulaAt i).evaluate valuation } := by
  rw [evaluate]
  congr 1
  ext i h
  rw [Vector.getElem_ofFn]
  exact sheet.arena.get_sweep valuation sheet.truth ⟨i, h⟩

/-- After an evaluation the worksheet of a formula has the value of the formula. -/
theorem value_evaluate (formula : Formula) (valuation : Valuation) :
    ((ofFormula formula).evaluate valuation).value = formula.evaluate valuation := by
  have atRoot := formula.arena.get_sweep valuation (Vector.replicate _ false) formula.rootPlace
  rw [formula.formulaAt_arena] at atRoot
  exact atRoot

/-- After an evaluation, whatever values stood there before, each place has the value of the formula
that starts there. In turn these are the subformulas level by level, in reading order those of the
formula as it is read, and the value of the worksheet is that of the formula. -/
theorem truth_evaluate (formula : Formula) (truth : Vector Bool formula.arena.size)
    (valuation : Valuation) :
    let sheet := ({ ofFormula formula with truth := truth } : Worksheet).evaluate valuation
    (∀ i : Fin formula.arena.size,
        sheet.truth.get i = (formula.arena.formulaAt i).evaluate valuation) ∧
      sheet.truth.toList = formula.levelOrder.map (Formula.evaluate valuation) ∧
      sheet.readingOrder.map sheet.truth.get =
        formula.subformulas.map (Formula.evaluate valuation) ∧
      sheet.value = formula.evaluate valuation := by
  intro sheet
  have values (i : Fin formula.arena.size) :
      sheet.truth.get i = (formula.arena.formulaAt i).evaluate valuation :=
    formula.arena.get_sweep valuation truth i
  refine ⟨values, ?_, ?_, ?_⟩
  · refine List.ext_getElem ?_ fun k inside inside' => ?_
    · rw [Vector.length_toList, List.length_map]
      exact formula.size_arena
    · have below : k < formula.arena.size := inside.trans_eq Vector.length_toList
      have here := values ⟨k, below⟩
      rw [formula.formulaAt_arena_eq] at here
      rw [Vector.getElem_toList, List.getElem_map]
      exact here
  · rw [← formula.map_formulaAt_readingOrder_root, List.map_map]
    exact List.map_congr_left fun i _ => values i
  · have atRoot := values formula.rootPlace
    rw [formula.formulaAt_arena] at atRoot
    exact atRoot

end Worksheet

end TruthTable
