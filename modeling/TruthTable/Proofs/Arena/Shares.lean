import TruthTable.Arena.Parenthesis
import TruthTable.Proofs.Arena.Reconstruction

/-!
# The shares of the parentheses

The parentheses of a formula are handed out along the links of its arena, into a vector with an
entry for each place. `Formula.shares` hands them out along the tree instead, and lists them in
reading order. Each place keeps one part of what is demanded and passes on the rest, as each node of
the tree does (`Arena.distribute_not`, `Arena.distribute_binary`). So both agree wherever no place
is read twice (`Arena.map_distribute`). In the arena of a formula none is, so its counts in reading
order are the shares of the formula (`Formula.map_parenCounts`).

Sharing an operand breaks this: the place then has the count of the last visit only.
-/

namespace TruthTable

/-- The signed counts of parentheses of all nodes in reading order, for a formula that must carry
`demand`. Opening parentheses go to its left edge and closing ones to its right edge. -/
def Formula.shares (demand : Int) : Formula → List Int
  | .symbol _ | .constant _ => [demand]
  | .not _ operand => min demand 0 :: operand.shares (max demand 0)
  | .binary _ _ left right =>
    left.shares (min demand 0 - 1) ++ 0 :: right.shares (max demand 0 + 1)

namespace Arena

variable {arena : Arena} {i j : Fin arena.size} {demand : Int} {counts : Vector Int arena.size}

private theorem getElem_set_of_ne (apart : j ≠ i) : (counts.set i demand i.isLt)[j] = counts[j] :=
  Vector.getElem_set_ne i.isLt j.isLt fun same => apart (Fin.ext same.symm)

private theorem getElem_set_here : (counts.set i demand i.isLt)[i] = demand :=
  Vector.getElem_set_self i.isLt

/-! ## One place -/

theorem distribute_symbol {name : String} (h : arena.node i = .symbol name) :
    arena.distribute i demand counts = counts.set i demand i.isLt := by
  rw [distribute, h]

theorem distribute_constant {value : Bool} (h : arena.node i = .constant value) :
    arena.distribute i demand counts = counts.set i demand i.isLt := by
  rw [distribute, h]

/-- A negation keeps what is demanded in front and passes on what is demanded behind. -/
theorem distribute_not {spelling : String} {operand : arena.Later i}
    (h : arena.node i = .not spelling operand) :
    arena.distribute i demand counts =
      arena.distribute operand.1 (max demand 0) (counts.set i (min demand 0) i.isLt) := by
  rw [distribute, h]
  by_cases below : demand < 0
  · simp only [if_pos below, min_eq_left below.le, max_eq_right below.le]
  · have above : 0 ≤ demand := Int.not_lt.mp below
    simp only [if_neg below, min_eq_right above, max_eq_left above]

/-- A connective of two operands passes on what is demanded, and a pair of its own. -/
theorem distribute_binary {op : BinaryOp} {spelling : String} {left right : arena.Later i}
    (h : arena.node i = .binary op spelling left right) :
    arena.distribute i demand counts =
      arena.distribute right.1 (max demand 0 + 1)
        (arena.distribute left.1 (min demand 0 - 1) (counts.set i 0 i.isLt)) := by
  rw [distribute, h]
  by_cases below : demand < 0
  · simp only [if_pos below, min_eq_left below.le, max_eq_right below.le, Int.zero_add]
  · have above : 0 ≤ demand := Int.not_lt.mp below
    simp only [if_neg below, min_eq_right above, max_eq_left above, Int.zero_sub]

/-! ## All places that are read -/

/-- Counts are written only for the places that are read. -/
theorem distribute_of_not_mem (outside : j ∉ arena.readingOrder i) :
    (arena.distribute i demand counts)[j] = counts[j] := by
  fun_induction arena.readingOrder i generalizing demand counts with
  | case1 i name h =>
    rw [distribute_symbol h]
    exact getElem_set_of_ne (List.mem_singleton.not.mp outside)
  | case2 i value h =>
    rw [distribute_constant h]
    exact getElem_set_of_ne (List.mem_singleton.not.mp outside)
  | case3 i spelling operand h ih =>
    rw [List.mem_cons, not_or] at outside
    rw [distribute_not h, ih outside.2]
    exact getElem_set_of_ne outside.1
  | case4 i op spelling left right h ihLeft ihRight =>
    rw [List.mem_append, List.mem_cons, not_or, not_or] at outside
    obtain ⟨beforeSign, apart, behindSign⟩ := outside
    rw [distribute_binary h, ihRight behindSign, ihLeft beforeSign]
    exact getElem_set_of_ne apart

/-- Where no place is read twice, the counts in reading order are the shares of the formula. -/
theorem map_distribute (once : (arena.readingOrder i).Nodup) :
    (arena.readingOrder i).map (fun j => (arena.distribute i demand counts)[j]) =
      (arena.formulaAt i).shares demand := by
  fun_induction arena.readingOrder i generalizing demand counts with
  | case1 i name h =>
    rw [distribute_symbol h, formulaAt_symbol h, Formula.shares, List.map_singleton,
      getElem_set_here]
  | case2 i value h =>
    rw [distribute_constant h, formulaAt_constant h, Formula.shares, List.map_singleton,
      getElem_set_here]
  | case3 i spelling operand h ih =>
    obtain ⟨apart, onceBelow⟩ := List.nodup_cons.mp once
    rw [distribute_not h, formulaAt_not h, Formula.shares, List.map_cons, ih onceBelow,
      distribute_of_not_mem apart, getElem_set_here]
  | case4 i op spelling left right h ihLeft ihRight =>
    rw [← readingOrder_binary h] at once
    obtain ⟨onceLeft, onceRight, notBefore, notBehind, apart⟩ := apart_of_nodup h once
    -- The right operand leaves alone what the left one has written.
    have leftKept : (arena.readingOrder left.1).map (fun j => (arena.distribute right.1
        (max demand 0 + 1) (arena.distribute left.1 (min demand 0 - 1)
          (counts.set i 0 i.isLt)))[j]) =
        (arena.formulaAt left.1).shares (min demand 0 - 1) := by
      rw [← ihLeft onceLeft]
      exact List.map_congr_left fun j mem => distribute_of_not_mem (apart mem)
    rw [distribute_binary h, formulaAt_binary h, Formula.shares, List.map_append, List.map_cons,
      leftKept, ihRight onceRight, distribute_of_not_mem notBehind,
      distribute_of_not_mem notBefore, getElem_set_here]

end Arena

namespace Formula

/-- In the arena of a formula, the counts in reading order are the shares of the formula. -/
theorem map_parenCounts (formula : Formula) :
    (formula.arena.readingOrder formula.rootPlace).map (fun i => formula.arena.parenCounts[i]) =
      formula.shares 0 := by
  rw [Arena.parenCounts, dif_pos formula.size_arena_pos]
  exact (Arena.map_distribute formula.nodup_readingOrder).trans
    (congrArg (shares 0) formula.formulaAt_arena)

theorem length_shares (demand : Int) (formula : Formula) :
    (formula.shares demand).length = formula.subformulas.length := by
  fun_induction shares demand formula <;> simp_all [subformulas]

end Formula

end TruthTable
