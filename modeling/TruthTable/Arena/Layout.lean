import TruthTable.Arena

/-!
# Laying out a formula

The arena of a formula has the formula's nodes level by level, each level from left to right. The
root is at place 0. A queue brings the nodes into this order: the first formula that waits becomes
the next node, and its operands wait behind all others (`Formula.layOut`). When a node is laid out
its operands are not, so their places are foretold: each will be laid out when all that stand before
it in the queue have been.

What waits is always the rest of one level and the beginning of the next (`Formula.layOut_append`).
So the queue lays out whole levels in turn, and links are handed out by counting: the first node
with operands gets place 1, and so on (`Formula.layOut_levels`).
-/

namespace TruthTable.Formula

/-- The formulas of a level stand for one node fewer each than their operands do. -/
theorem totalSize_operands (level : List Formula) :
    totalSize (level.flatMap operands) + level.length = totalSize level := by
  induction level with
  | nil => rfl
  | cons formula rest ih =>
    rw [List.flatMap_cons, totalSize_append, List.length_cons, totalSize,
      formula.size_eq_totalSize_operands]
    omega

/-- The node at the root, with its operands at `next` and the place behind it. -/
def node (next : Nat) : Formula → Node Nat
  | .symbol name => .symbol name
  | .constant value => .constant value
  | .not spelling _ => .not spelling next
  | .binary op spelling _ _ => .binary op spelling next (next + 1)

/-- Lays out the formulas of a queue behind the nodes that are there. The operands of a formula go
to the end of the queue; they get the places that this foretells. -/
def layOut (nodes : Array (Node Nat)) : List Formula → Array (Node Nat)
  | [] => nodes
  | formula :: waiting =>
    layOut (nodes.push (formula.node (nodes.size + 1 + waiting.length)))
      (waiting ++ formula.operands)
termination_by queue => totalSize queue
decreasing_by
  rw [totalSize_append, totalSize, formula.size_eq_totalSize_operands]
  omega

/-! ## Levels -/

/-- A level of formulas and all levels below it, down to the leaves. -/
def levels : List Formula → List (List Formula)
  | [] => []
  | formula :: rest => (formula :: rest) :: levels ((formula :: rest).flatMap operands)
termination_by level => totalSize level
decreasing_by
  rw [← totalSize_operands (formula :: rest), List.length_cons]
  omega

/-- Every subformula, level by level. -/
def levelOrder (formula : Formula) : List Formula :=
  (levels [formula]).flatten

/-- The nodes at the roots of some formulas. Their operands take the places from `next` on. -/
def link (next : Nat) : List Formula → List (Node Nat)
  | [] => []
  | formula :: rest => formula.node next :: link (next + formula.operands.length) rest

@[simp] theorem length_link (next : Nat) (formulas : List Formula) :
    (link next formulas).length = formulas.length := by
  induction formulas generalizing next with
  | nil => rfl
  | cons formula rest ih => simp [link, ih]

theorem link_append (next : Nat) (before after : List Formula) :
    link next (before ++ after) =
      link next before ++ link (next + (before.flatMap operands).length) after := by
  induction before generalizing next with
  | nil => simp [link]
  | cons formula rest ih => simp [link, ih, Nat.add_assoc]

theorem links_node (next : Nat) (formula : Formula) :
    (formula.node next).links = List.range' next formula.operands.length := by
  cases formula <;> rfl

/-- Links are handed out from `next` on, one for each operand. -/
theorem flatMap_links_link (next : Nat) (formulas : List Formula) :
    (link next formulas).flatMap Node.links =
      List.range' next (formulas.flatMap operands).length := by
  induction formulas generalizing next with
  | nil => rfl
  | cons formula rest ih =>
    rw [link, List.flatMap_cons, ih, links_node, List.flatMap_cons, List.length_append,
      List.range'_append_1]

theorem length_le_length_flatten_levels (level : List Formula) :
    level.length ≤ (levels level).flatten.length := by
  cases level <;> simp [levels]

/-- The links of a level lead past the level, and not past the end of all levels. -/
theorem link_levels_later (level : List Formula) (start i : Nat)
    (h : i < (link (start + level.length) (levels level).flatten).length) :
    ∀ j ∈ (link (start + level.length) (levels level).flatten)[i].links,
      start + i < j ∧ j < start + (levels level).flatten.length := by
  intro j hj
  fun_induction levels level generalizing start i with
  | case1 => simp [link] at h
  | case2 formula rest ih =>
    generalize formula :: rest = level at *
    have below := length_le_length_flatten_levels (level.flatMap operands)
    simp only [List.flatten_cons, link_append, List.length_append, length_link] at h hj ⊢
    rw [List.getElem_append] at hj
    split at hj
    case isTrue inLevel =>
      have mem : j ∈ (link (start + level.length) level).flatMap Node.links :=
        List.mem_flatMap.2 ⟨_, List.getElem_mem inLevel, hj⟩
      rw [flatMap_links_link, List.mem_range'_1] at mem
      rw [length_link] at inLevel
      omega
    case isFalse notInLevel =>
      rw [length_link] at notInLevel
      simp only [length_link] at hj
      have := ih (start + level.length) (i - level.length) (by rw [length_link]; omega) hj
      omega

/-! ## From the queue to the levels -/

/-- The beginning of a queue is laid out in turn, and leaves its operands behind the rest. -/
theorem layOut_append (nodes : Array (Node Nat)) (level behind : List Formula) :
    layOut nodes (level ++ behind) =
      layOut (nodes ++ (link (nodes.size + (level ++ behind).length) level).toArray)
        (behind ++ level.flatMap operands) := by
  induction level generalizing nodes behind with
  | nil => simp [link]
  | cons formula rest ih =>
    -- A formula that is laid out leaves the queue, so places do not move.
    have place : nodes.size + 1 + (rest ++ behind).length =
        nodes.size + (formula :: rest ++ behind).length := by
      simp only [List.length_append, List.length_cons]
      omega
    have next : nodes.size + 1 + (rest ++ (behind ++ formula.operands)).length =
        nodes.size + (formula :: rest ++ behind).length + formula.operands.length := by
      simp only [List.length_append, List.length_cons]
      omega
    rw [List.cons_append, layOut, List.append_assoc, ih, Array.size_push, next, place,
      ← List.cons_append, link, List.flatMap_cons, List.append_assoc]
    congr 1
    exact Array.toList_inj.mp (by simp)

/-- A queue that holds a level lays out this level and all levels below it. -/
theorem layOut_levels (nodes : Array (Node Nat)) (level : List Formula) :
    (layOut nodes level).toList =
      nodes.toList ++ link (nodes.size + level.length) (levels level).flatten := by
  fun_induction levels level generalizing nodes with
  | case1 => simp [layOut, link]
  | case2 formula rest ih =>
    generalize formula :: rest = level at *
    have whole := layOut_append nodes level []
    rw [List.append_nil, List.nil_append] at whole
    have size : (nodes ++ (link (nodes.size + level.length) level).toArray).size =
        nodes.size + level.length := by
      simp
    rw [whole, ih, size, Array.toList_append, List.flatten_cons, link_append, List.append_assoc]

/-- The nodes of a formula are those of its level order, with links handed out from 1 on. -/
theorem layOut_eq (formula : Formula) :
    layOut #[] [formula] = (link 1 formula.levelOrder).toArray :=
  Array.toList_inj.mp (layOut_levels #[] [formula])

/-- The arena of a formula: its nodes level by level, the root first. -/
def arena (formula : Formula) : Arena where
  nodes := layOut #[] [formula]
  linksLater := by
    rw [layOut_eq]
    intro i h j hj
    have := link_levels_later [formula] 0 i h j hj
    simpa [levelOrder] using this

theorem nodes_arena (formula : Formula) :
    formula.arena.nodes = (link 1 formula.levelOrder).toArray :=
  formula.layOut_eq

theorem size_arena (formula : Formula) : formula.arena.size = formula.levelOrder.length := by
  rw [Arena.size, nodes_arena, List.size_toArray, length_link]

theorem size_arena_pos (formula : Formula) : 0 < formula.arena.size := by
  simp [size_arena, levelOrder, levels]

end TruthTable.Formula
