import Mathlib.Data.List.Infix
import Mathlib.Data.List.Pairwise
import TruthTable.Proofs.Arena.Reconstruction

/-!
# The levels of an arena

The places of a formula are numbered level by level. Seen from the links this is one equation: the
places in turn are the root, followed by the operands of all places in turn
(`Formula.finRange_arena`). A place that is not the root is therefore the operand of exactly one
other (`Formula.existsUnique_operandsAt`).

The levels satisfy the same equation step by step: the levels down to a depth are the root, followed
by the operands of the levels above (`Arena.flatMap_level_succ`). So they are a beginning of all
places, however deep one goes (`Formula.flatMap_level_isPrefix`), and counting nodes shows that
nothing is left behind the last level. Since a beginning of all places has none of them twice, no
place is on two levels (`Formula.eq_of_mem_level`).
-/

namespace TruthTable

/-- Where lists in turn have nothing twice, two of them have nothing in common. -/
private theorem eq_of_mem_flatMap {α β : Type} {list : List α} {f : α → List β} {a b : α} {x : β}
    (once : (list.flatMap f).Nodup) (mem : a ∈ list) (mem' : b ∈ list) (inOne : x ∈ f a)
    (inOther : x ∈ f b) : a = b := by
  obtain ⟨-, apart⟩ := List.nodup_flatMap.mp once
  have : Std.Symm (Function.onFun List.Disjoint f) :=
    ⟨fun _ _ disjoint _ one other => disjoint other one⟩
  by_contra other
  exact apart.forall mem mem' other inOne inOther

namespace Formula

theorem height_lt_of_mem_operands {formula operand : Formula} (mem : operand ∈ formula.operands) :
    operand.height < formula.height := by
  cases formula with
  | symbol | constant => cases mem
  | not spelling inner =>
    obtain rfl := List.mem_singleton.mp mem
    exact Nat.lt_succ_self _
  | binary op spelling left right =>
    rw [operands, List.mem_cons, List.mem_singleton] at mem
    rw [height]
    rcases mem with rfl | rfl <;> omega

end Formula

namespace Arena

variable {arena : Arena} {i j : Fin arena.size} {depth : Nat}

/-- The places of the operands, from left to right. -/
def operandsAt (arena : Arena) (i : Fin arena.size) : List (Fin arena.size) :=
  (arena.node i).links.map (·.1)

/-- The places `depth` links below a place, from left to right. -/
def level (arena : Arena) (i : Fin arena.size) : Nat → List (Fin arena.size)
  | 0 => [i]
  | depth + 1 => (arena.level i depth).flatMap arena.operandsAt

/-! ## Operands -/

theorem lt_of_mem_operandsAt (mem : j ∈ arena.operandsAt i) : i < j := by
  obtain ⟨link, -, rfl⟩ := List.mem_map.mp mem
  exact link.2

theorem map_val_operandsAt (arena : Arena) (i : Fin arena.size) :
    (arena.operandsAt i).map (·.val) = arena.nodes[i].links := by
  rw [← map_node, Node.links_map, operandsAt, List.map_map]
  rfl

/-- The operands of a place have the operands of its formula. -/
theorem map_formulaAt_operandsAt (arena : Arena) (i : Fin arena.size) :
    (arena.operandsAt i).map arena.formulaAt = (arena.formulaAt i).operands := by
  cases h : arena.node i with
  | symbol name => rw [operandsAt, h, formulaAt_symbol h]; rfl
  | constant value => rw [operandsAt, h, formulaAt_constant h]; rfl
  | not spelling operand => rw [operandsAt, h, formulaAt_not h]; rfl
  | binary op spelling left right => rw [operandsAt, h, formulaAt_binary h]; rfl

/-- The nodes in turn are those at all places in turn. -/
theorem map_nodes_finRange (arena : Arena) :
    (List.finRange arena.size).map (fun i => arena.nodes[i]) = arena.nodes.toList :=
  List.map_getElem_finRange arena.nodes.toList

theorem height_formulaAt_lt (mem : j ∈ arena.operandsAt i) :
    (arena.formulaAt j).height < (arena.formulaAt i).height := by
  apply Formula.height_lt_of_mem_operands
  rw [← map_formulaAt_operandsAt]
  exact List.mem_map_of_mem mem

/-- The operands of all places in turn are the links of all nodes in turn. -/
theorem map_val_flatMap_operandsAt (arena : Arena) :
    ((List.finRange arena.size).flatMap arena.operandsAt).map (·.val) =
      arena.nodes.toList.flatMap Node.links := by
  rw [List.map_flatMap, ← arena.map_nodes_finRange, List.flatMap_map]
  exact List.flatMap_congr fun i _ => arena.map_val_operandsAt i

/-! ## Levels -/

/-- The levels down to a depth are the place followed by the operands of the levels above. -/
theorem flatMap_level_succ (arena : Arena) (i : Fin arena.size) (depth : Nat) :
    (List.range (depth + 1)).flatMap (arena.level i) =
      i :: ((List.range depth).flatMap (arena.level i)).flatMap arena.operandsAt := by
  rw [List.range_succ_eq_map, List.flatMap_cons, List.flatMap_map, List.flatMap_assoc]
  rfl

/-- What lies some links below an operand lies one link more below the connective. -/
theorem mem_level_succ {k : Fin arena.size} (isOperand : k ∈ arena.operandsAt i)
    (mem : j ∈ arena.level k depth) : j ∈ arena.level i (depth + 1) := by
  induction depth generalizing j with
  | zero =>
    obtain rfl := List.mem_singleton.mp mem
    exact List.mem_flatMap.mpr ⟨i, List.mem_singleton_self i, isOperand⟩
  | succ depth ih =>
    obtain ⟨between, inLevel, below⟩ := List.mem_flatMap.mp mem
    exact List.mem_flatMap.mpr ⟨between, ih inLevel, below⟩

/-- The formulas of a level are lower by as much as the level is deep. -/
theorem height_formulaAt_level (mem : j ∈ arena.level i depth) :
    (arena.formulaAt j).height + depth ≤ (arena.formulaAt i).height := by
  induction depth generalizing j with
  | zero =>
    obtain rfl := List.mem_singleton.mp mem
    exact Nat.le_refl _
  | succ depth ih =>
    obtain ⟨k, inLevel, isOperand⟩ := List.mem_flatMap.mp mem
    have above := ih inLevel
    have below := height_formulaAt_lt isOperand
    omega

/-- The height of a formula bounds its levels. -/
theorem level_height (arena : Arena) (i : Fin arena.size) :
    arena.level i (arena.formulaAt i).height = [] := by
  rw [List.eq_nil_iff_forall_not_mem]
  intro j mem
  have bound := height_formulaAt_level mem
  have positive := (arena.formulaAt j).height_pos
  omega

/-- The levels down to a depth and the formulas of the next one have all nodes. -/
theorem length_flatMap_level_add (arena : Arena) (i : Fin arena.size) (depth : Nat) :
    ((List.range depth).flatMap (arena.level i)).length +
        Formula.totalSize ((arena.level i depth).map arena.formulaAt) =
      (arena.formulaAt i).size := by
  induction depth with
  | zero => simp [level, Formula.totalSize]
  | succ depth ih =>
    have operands : (arena.level i (depth + 1)).map arena.formulaAt =
        ((arena.level i depth).map arena.formulaAt).flatMap Formula.operands := by
      rw [level, List.map_flatMap, List.flatMap_map]
      exact List.flatMap_congr fun j _ => arena.map_formulaAt_operandsAt j
    have split := Formula.totalSize_operands ((arena.level i depth).map arena.formulaAt)
    rw [List.length_map] at split
    rw [List.range_succ, List.flatMap_append, List.flatMap_singleton, List.length_append, operands]
    omega

/-- The levels of a place have as many places as its formula has nodes. -/
theorem length_flatMap_level (arena : Arena) (i : Fin arena.size) :
    ((List.range (arena.formulaAt i).height).flatMap (arena.level i)).length =
      (arena.formulaAt i).size := by
  have all := arena.length_flatMap_level_add i (arena.formulaAt i).height
  rwa [level_height] at all

end Arena

namespace Formula

/-! ## The places of a formula -/

variable {formula : Formula}

theorem size_arena_eq_size (formula : Formula) : formula.arena.size = formula.size := by
  rw [size_arena, length_levelOrder]

/-- All places in turn are the root followed by the operands of all places in turn. -/
theorem finRange_arena (formula : Formula) :
    List.finRange formula.arena.size =
      formula.rootPlace ::
        (List.finRange formula.arena.size).flatMap formula.arena.operandsAt := by
  apply List.map_injective_iff.mpr Fin.val_injective
  have behind := formula.arena.map_val_flatMap_operandsAt
  rw [flatMap_links_arena] at behind
  have positive : formula.arena.size = formula.arena.size - 1 + 1 :=
    (Nat.sub_add_cancel formula.size_arena_pos).symm
  rw [List.map_cons, behind, List.map_coe_finRange_eq_range, List.range_eq_range']
  conv_lhs => rw [positive, List.range'_succ]
  rfl

/-- Every place but the root is the operand of exactly one place. -/
theorem existsUnique_operandsAt {k : Fin formula.arena.size} (behind : k ≠ formula.rootPlace) :
    ∃! i, k ∈ formula.arena.operandsAt i := by
  have once := List.nodup_finRange formula.arena.size
  rw [finRange_arena, List.nodup_cons] at once
  have mem := List.mem_finRange k
  rw [finRange_arena, List.mem_cons, or_iff_right behind, List.mem_flatMap] at mem
  obtain ⟨i, inside, isOperand⟩ := mem
  refine ⟨i, isOperand, fun i' isOperand' => ?_⟩
  exact eq_of_mem_flatMap once.2 (List.mem_finRange i') inside isOperand' isOperand

/-- The levels of the root are a beginning of all places. -/
theorem flatMap_level_isPrefix (formula : Formula) (depth : Nat) :
    (List.range depth).flatMap (formula.arena.level formula.rootPlace) <+:
      List.finRange formula.arena.size := by
  induction depth with
  | zero => exact List.nil_prefix
  | succ depth ih =>
    rw [Arena.flatMap_level_succ, finRange_arena]
    exact (List.prefix_cons_inj _).mpr (ih.flatMap _)

/-- A place is on one level only. -/
theorem eq_of_mem_level {k : Fin formula.arena.size} {depth depth' : Nat}
    (mem : k ∈ formula.arena.level formula.rootPlace depth)
    (mem' : k ∈ formula.arena.level formula.rootPlace depth') : depth = depth' := by
  have beginning := formula.flatMap_level_isPrefix (max depth depth' + 1)
  have once := beginning.sublist.nodup (List.nodup_finRange _)
  exact eq_of_mem_flatMap once (List.mem_range.mpr (by omega)) (List.mem_range.mpr (by omega))
    mem mem'

/-- The levels of the root have all places in turn. -/
theorem flatMap_level (formula : Formula) :
    (List.range formula.height).flatMap (formula.arena.level formula.rootPlace) =
      List.finRange formula.arena.size := by
  refine (formula.flatMap_level_isPrefix formula.height).eq_of_length ?_
  rw [List.length_finRange]
  have count := formula.arena.length_flatMap_level formula.rootPlace
  rwa [formulaAt_arena, ← size_arena_eq_size] at count

/-- The layout of a formula. The arena has a place for each node of the formula. The links of all
nodes in turn lead to the places behind the root in turn; so each place but the root is the operand
of exactly one place, operands come later, and the levels of the root from left to right are all
places in turn. The formula that starts at the root is the formula itself. The reading order visits
each place once, and meets the subformulas in their reading order. -/
theorem arena_layout (formula : Formula) :
    let arena := formula.arena
    let root := formula.rootPlace
    arena.size = formula.size ∧
      arena.nodes.toList.flatMap Node.links = List.range' 1 (arena.size - 1) ∧
      (∀ k, k ≠ root → ∃! i, k ∈ arena.operandsAt i) ∧
      (∀ i, ∀ k ∈ arena.operandsAt i, i < k) ∧
      (List.range formula.height).flatMap (arena.level root) = List.finRange arena.size ∧
      arena.formulaAt root = formula ∧
      (arena.readingOrder root).Perm (List.finRange arena.size) ∧
      (arena.readingOrder root).map arena.formulaAt = formula.subformulas := by
  intro arena root
  exact ⟨formula.size_arena_eq_size, formula.flatMap_links_arena,
    fun _ => formula.existsUnique_operandsAt, fun _ _ => Arena.lt_of_mem_operandsAt,
    formula.flatMap_level, formula.formulaAt_arena, formula.readingOrder_perm,
    formula.map_formulaAt_readingOrder_root⟩

end Formula

end TruthTable
