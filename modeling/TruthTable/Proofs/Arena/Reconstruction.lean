import Mathlib.Data.List.FinRange
import TruthTable.Arena.Layout

/-!
# The formula in its arena

The layout of a formula hands out links before the operands have their places. This module says why
that works. All subformulas level by level are the formula followed by the operands of all of them
(`Formula.levelOrder_eq`). So the operands that were counted when a node was laid out are the ones
that stand at the places it was given.

Two consequences are what the rest needs. The arena holds at each place the subformula that the
level order has there, and so the formula itself at the root (`Formula.formulaAt_arena`). And the
reading order from the root visits every place exactly once (`Formula.readingOrder_perm`): it
visits each place, since each but the root is somebody's operand, and it has no more entries than
there are places.
-/

namespace TruthTable

namespace Node

variable {Link Target : Type}

/-- The node with every link changed by a function. -/
def map (f : Link → Target) : Node Link → Node Target
  | .symbol name => .symbol name
  | .constant value => .constant value
  | .not spelling operand => .not spelling (f operand)
  | .binary op spelling left right => .binary op spelling (f left) (f right)

theorem map_pmap {p : Link → Prop} {Other : Type} (g : Target → Other)
    (f : (link : Link) → p link → Target) (node : Node Link) (h : ∀ link ∈ node.links, p link) :
    (node.pmap f h).map g = node.pmap (fun link hlink => g (f link hlink)) h := by
  cases node <;> rfl

theorem pmap_eq_self {p : Link → Prop} (node : Node Link) (h : ∀ link ∈ node.links, p link) :
    node.pmap (fun link _ => link) h = node := by
  cases node <;> rfl

theorem links_map (f : Link → Target) (node : Node Link) :
    (node.map f).links = node.links.map f := by
  cases node <;> rfl

end Node

namespace Arena

variable {arena : Arena} {i : Fin arena.size}

/-! ## One place -/

/-- A node without what is known of its links is the node that the arena holds. -/
theorem map_node (arena : Arena) (i : Fin arena.size) :
    (arena.node i).map (·.1.val) = arena.nodes[i] := by
  rw [node, Node.map_pmap, Node.pmap_eq_self]

theorem formulaAt_symbol {name : String} (h : arena.node i = .symbol name) :
    arena.formulaAt i = .symbol name := by
  rw [formulaAt, h]

theorem formulaAt_constant {value : Bool} (h : arena.node i = .constant value) :
    arena.formulaAt i = .constant value := by
  rw [formulaAt, h]

theorem formulaAt_not {spelling : String} {operand : arena.Later i}
    (h : arena.node i = .not spelling operand) :
    arena.formulaAt i = .not spelling (arena.formulaAt operand.1) := by
  rw [formulaAt, h]

theorem formulaAt_binary {op : BinaryOp} {spelling : String} {left right : arena.Later i}
    (h : arena.node i = .binary op spelling left right) :
    arena.formulaAt i =
      .binary op spelling (arena.formulaAt left.1) (arena.formulaAt right.1) := by
  rw [formulaAt, h]

/-! ## The reading order -/

theorem readingOrder_symbol {name : String} (h : arena.node i = .symbol name) :
    arena.readingOrder i = [i] := by
  rw [readingOrder, h]

theorem readingOrder_constant {value : Bool} (h : arena.node i = .constant value) :
    arena.readingOrder i = [i] := by
  rw [readingOrder, h]

theorem readingOrder_not {spelling : String} {operand : arena.Later i}
    (h : arena.node i = .not spelling operand) :
    arena.readingOrder i = i :: arena.readingOrder operand.1 := by
  rw [readingOrder, h]

theorem readingOrder_binary {op : BinaryOp} {spelling : String} {left right : arena.Later i}
    (h : arena.node i = .binary op spelling left right) :
    arena.readingOrder i = arena.readingOrder left.1 ++ i :: arena.readingOrder right.1 := by
  rw [readingOrder, h]

/-- Where no place is read twice, a connective and its two operands have no place in common. -/
theorem apart_of_nodup {op : BinaryOp} {spelling : String} {left right : arena.Later i}
    (h : arena.node i = .binary op spelling left right) (once : (arena.readingOrder i).Nodup) :
    (arena.readingOrder left.1).Nodup ∧ (arena.readingOrder right.1).Nodup ∧
      i ∉ arena.readingOrder left.1 ∧ i ∉ arena.readingOrder right.1 ∧
      List.Disjoint (arena.readingOrder left.1) (arena.readingOrder right.1) := by
  rw [readingOrder_binary h] at once
  obtain ⟨onceLeft, onceSign, apart⟩ := List.nodup_append'.mp once
  obtain ⟨notBehind, onceRight⟩ := List.nodup_cons.mp onceSign
  exact ⟨onceLeft, onceRight, fun mem => apart mem List.mem_cons_self, notBehind,
    fun _ memLeft memRight => apart memLeft (List.mem_cons_of_mem _ memRight)⟩

/-- The reading order of a place has the subformulas of its formula. -/
theorem map_formulaAt_readingOrder (i : Fin arena.size) :
    (arena.readingOrder i).map arena.formulaAt = (arena.formulaAt i).subformulas := by
  fun_induction arena.readingOrder i with
  | case1 i name h => rw [List.map_singleton, formulaAt_symbol h, Formula.subformulas]
  | case2 i value h => rw [List.map_singleton, formulaAt_constant h, Formula.subformulas]
  | case3 i spelling operand h ih =>
    rw [List.map_cons, ih, formulaAt_not h, Formula.subformulas]
  | case4 i op spelling left right h ihLeft ihRight =>
    rw [List.map_append, List.map_cons, ihLeft, ihRight, formulaAt_binary h, Formula.subformulas]

theorem mem_readingOrder_self (i : Fin arena.size) : i ∈ arena.readingOrder i := by
  rw [readingOrder]
  split <;> simp

/-- The operands of a place in a reading order are in the reading order. -/
theorem mem_readingOrder_of_link {j : Fin arena.size} {link : arena.Later j}
    (mem : j ∈ arena.readingOrder i) (isLink : link ∈ (arena.node j).links) :
    link.1 ∈ arena.readingOrder i := by
  fun_induction arena.readingOrder i with
  | case1 i name h | case2 i value h =>
    obtain rfl := List.mem_singleton.mp mem
    rw [h] at isLink
    cases isLink
  | case3 i spelling operand h ih =>
    rcases List.mem_cons.mp mem with rfl | mem
    · rw [h] at isLink
      obtain rfl := List.mem_singleton.mp isLink
      exact List.mem_cons_of_mem _ (mem_readingOrder_self _)
    · exact List.mem_cons_of_mem _ (ih mem)
  | case4 i op spelling left right h ihLeft ihRight =>
    rcases List.mem_append.mp mem with mem | mem
    · exact List.mem_append_left _ (ihLeft mem)
    · rcases List.mem_cons.mp mem with rfl | mem
      · rw [h, Node.links, List.mem_cons, List.mem_singleton] at isLink
        rcases isLink with rfl | rfl
        · exact List.mem_append_left _ (mem_readingOrder_self _)
        · exact List.mem_append_right _ (List.mem_cons_of_mem _ (mem_readingOrder_self _))
      · exact List.mem_append_right _ (List.mem_cons_of_mem _ (ihRight mem))

/-- What is read from a place that is read from another one is read from that one too. -/
theorem mem_readingOrder_trans {j k : Fin arena.size} (mem : j ∈ arena.readingOrder i)
    (mem' : k ∈ arena.readingOrder j) : k ∈ arena.readingOrder i := by
  fun_induction arena.readingOrder i with
  | case1 i name h =>
    obtain rfl := List.mem_singleton.mp mem
    rwa [readingOrder_symbol h] at mem'
  | case2 i value h =>
    obtain rfl := List.mem_singleton.mp mem
    rwa [readingOrder_constant h] at mem'
  | case3 i spelling operand h ih =>
    rcases List.mem_cons.mp mem with rfl | mem
    · rwa [readingOrder_not h] at mem'
    · exact List.mem_cons_of_mem _ (ih mem)
  | case4 i op spelling left right h ihLeft ihRight =>
    rcases List.mem_append.mp mem with mem | mem
    · exact List.mem_append_left _ (ihLeft mem)
    · rcases List.mem_cons.mp mem with rfl | mem
      · rwa [readingOrder_binary h] at mem'
      · exact List.mem_append_right _ (List.mem_cons_of_mem _ (ihRight mem))

end Arena

namespace Formula

/-! ## The level order -/

/-- All formulas below a level are the operands of the level and of all formulas below it. -/
theorem flatten_levels (level : List Formula) :
    (levels level).flatten = level ++ (levels level).flatten.flatMap operands := by
  fun_induction levels level with
  | case1 => rfl
  | case2 formula rest ih =>
    rw [List.flatten_cons, List.flatMap_append, ← ih]

/-- The level order is the formula followed by the operands of all subformulas in turn. -/
theorem levelOrder_eq (formula : Formula) :
    formula.levelOrder = formula :: formula.levelOrder.flatMap operands :=
  flatten_levels [formula]

theorem length_flatten_levels (level : List Formula) :
    (levels level).flatten.length = totalSize level := by
  fun_induction levels level with
  | case1 => rfl
  | case2 formula rest ih =>
    rw [List.flatten_cons, List.length_append, ih, ← totalSize_operands (formula :: rest)]
    omega

/-- The level order has one entry for each node of the formula. -/
theorem length_levelOrder (formula : Formula) : formula.levelOrder.length = formula.size := by
  rw [levelOrder, length_flatten_levels]
  simp [totalSize]

/-- The place of the first operand of a subformula in the level order. -/
def firstOperand (formula : Formula) (i : Nat) : Nat :=
  1 + ((formula.levelOrder.take i).flatMap operands).length

/-- The operands of a subformula stand in the level order from its first operand on. -/
theorem levelOrder_operand {formula part operand : Formula} {i j : Nat}
    (isPart : formula.levelOrder[i]? = some part) (isOperand : part.operands[j]? = some operand) :
    formula.levelOrder[formula.firstOperand i + j]? = some operand := by
  obtain ⟨h, rfl⟩ := List.getElem?_eq_some_iff.mp isPart
  obtain ⟨inside, -⟩ := List.getElem?_eq_some_iff.mp isOperand
  have flat : formula.levelOrder.flatMap operands =
      (formula.levelOrder.take i).flatMap operands ++ (formula.levelOrder[i].operands ++
        (formula.levelOrder.drop (i + 1)).flatMap operands) := by
    conv_lhs => rw [← List.take_append_drop i formula.levelOrder]
    rw [List.flatMap_append, List.drop_eq_getElem_cons h, List.flatMap_cons]
  calc formula.levelOrder[formula.firstOperand i + j]?
      = (formula :: formula.levelOrder.flatMap operands)[formula.firstOperand i + j]? :=
        congrArg (·[formula.firstOperand i + j]?) formula.levelOrder_eq
    _ = (formula.levelOrder.flatMap operands)[
          ((formula.levelOrder.take i).flatMap operands).length + j]? := by
        rw [firstOperand, Nat.add_comm 1, Nat.add_right_comm, List.getElem?_cons_succ]
    _ = some operand := by
        rw [flat, List.getElem?_append_right (Nat.le_add_right _ _), Nat.add_sub_cancel_left,
          List.getElem?_append_left inside, isOperand]

theorem getElem?_link (next i : Nat) (formulas : List Formula) :
    (link next formulas)[i]? =
      formulas[i]?.map (·.node (next + ((formulas.take i).flatMap operands).length)) := by
  induction formulas generalizing next i with
  | nil => rfl
  | cons formula rest ih =>
    cases i with
    | zero => simp [link]
    | succ i =>
      rw [link, List.getElem?_cons_succ, List.getElem?_cons_succ, ih, List.take_succ_cons,
        List.flatMap_cons, List.length_append, Nat.add_assoc]

/-! ## The places of the arena -/

variable {formula : Formula}

/-- The subformula that the level order has at a place. -/
def partAt (formula : Formula) (i : Fin formula.arena.size) : Formula :=
  formula.levelOrder.get (i.cast formula.size_arena)

theorem getElem?_levelOrder (i : Fin formula.arena.size) :
    formula.levelOrder[i.val]? = some (formula.partAt i) := by
  rw [partAt, List.get_eq_getElem]
  exact List.getElem?_eq_getElem _

/-- Each place of the arena has the node of its subformula, linked to its first operand. -/
theorem map_node_arena (i : Fin formula.arena.size) :
    (formula.arena.node i).map (·.1.val) = (formula.partAt i).node (formula.firstOperand i) := by
  have held : formula.arena.nodes[i.val]? =
      some ((formula.partAt i).node (formula.firstOperand i)) := by
    rw [nodes_arena, List.getElem?_toArray, getElem?_link, getElem?_levelOrder]
    rfl
  rw [Arena.map_node]
  exact (Array.getElem?_eq_some_iff.mp held).2

/-- A place that was handed out for an operand has the operand. -/
theorem partAt_of_operand {operand : Formula} {i k : Fin formula.arena.size} {j : Nat}
    (place : k.val = formula.firstOperand i + j)
    (isOperand : (formula.partAt i).operands[j]? = some operand) :
    formula.partAt k = operand := by
  have stands := levelOrder_operand (getElem?_levelOrder i) isOperand
  rw [← place, getElem?_levelOrder] at stands
  exact Option.some.inj stands

/-- The arena holds at each place the subformula that the level order has there. -/
theorem formulaAt_arena_eq (formula : Formula) (i : Fin formula.arena.size) :
    formula.arena.formulaAt i = formula.partAt i := by
  fun_induction formula.arena.formulaAt i with
  | case1 i name h | case2 i value h =>
    have held := map_node_arena i
    rw [h] at held
    cases here : formula.partAt i <;> simp_all [Node.map, Formula.node]
  | case3 i spelling link h ih =>
    have held := map_node_arena i
    rw [h] at held
    cases here : formula.partAt i with
    | not spelling' operand =>
      rw [here] at held
      obtain ⟨rfl, place⟩ := Node.not.inj held
      rw [ih, partAt_of_operand (j := 0) place (by rw [here]; rfl)]
    | _ => simp_all [Node.map, Formula.node]
  | case4 i op spelling left right h ihLeft ihRight =>
    have held := map_node_arena i
    rw [h] at held
    cases here : formula.partAt i with
    | binary op' spelling' operand operand' =>
      rw [here] at held
      obtain ⟨rfl, rfl, place, place'⟩ := Node.binary.inj held
      rw [ihLeft, ihRight, partAt_of_operand (j := 0) place (by rw [here]; rfl),
        partAt_of_operand (j := 1) place' (by rw [here]; rfl)]
    | _ => simp_all [Node.map, Formula.node]

/-- The place of the whole formula. -/
def rootPlace (formula : Formula) : Fin formula.arena.size :=
  ⟨0, formula.size_arena_pos⟩

/-- The arena of a formula holds the formula at its root. -/
theorem formulaAt_arena (formula : Formula) :
    formula.arena.formulaAt formula.rootPlace = formula := by
  rw [formulaAt_arena_eq]
  exact List.getElem_of_eq formula.levelOrder_eq _

/-- Read from the root, the places of the arena have the subformulas of the formula. -/
theorem map_formulaAt_readingOrder_root (formula : Formula) :
    (formula.arena.readingOrder formula.rootPlace).map formula.arena.formulaAt =
      formula.subformulas := by
  rw [Arena.map_formulaAt_readingOrder, formulaAt_arena]

/-! ## Every place is read once -/

/-- The links of all nodes in turn lead to all places behind the root in turn. -/
theorem flatMap_links_arena (formula : Formula) :
    formula.arena.nodes.toList.flatMap Node.links = List.range' 1 (formula.arena.size - 1) := by
  have length := congrArg List.length formula.levelOrder_eq
  rw [List.length_cons, ← size_arena] at length
  rw [length, Nat.add_sub_cancel, nodes_arena]
  exact flatMap_links_link 1 formula.levelOrder

/-- Every place but the root is linked by an earlier one. -/
theorem exists_link (formula : Formula) {k : Fin formula.arena.size} (behind : 0 < k.val) :
    ∃ i, ∃ link ∈ (formula.arena.node i).links, link.1 = k := by
  have handedOut : k.val ∈ formula.arena.nodes.toList.flatMap Node.links := by
    rw [flatMap_links_arena, List.mem_range'_1]
    omega
  obtain ⟨node, inArena, isLink⟩ := List.mem_flatMap.mp handedOut
  obtain ⟨i, inside, rfl⟩ := List.mem_iff_getElem.mp inArena
  have held := formula.arena.map_node ⟨i, inside⟩
  have linked : k.val ∈ ((formula.arena.node ⟨i, inside⟩).map (·.1.val)).links := by
    rw [held]
    exact isLink
  rw [Node.links_map] at linked
  obtain ⟨link, isLink, same⟩ := List.mem_map.mp linked
  exact ⟨⟨i, inside⟩, link, isLink, Fin.ext same⟩

/-- The reading order from the root has every place. -/
theorem mem_readingOrder_root (formula : Formula) (k : Fin formula.arena.size) :
    k ∈ formula.arena.readingOrder formula.rootPlace := by
  induction place : k.val using Nat.strongRecOn generalizing k with
  | ind place' ih =>
    cases place' with
    | zero =>
      obtain rfl : k = formula.rootPlace := Fin.ext place
      exact Arena.mem_readingOrder_self _
    | succ previous =>
      obtain ⟨i, link, isLink, rfl⟩ := formula.exists_link (k := k) (by omega)
      have earlier : i.val < link.1.val := link.2
      exact Arena.mem_readingOrder_of_link (ih i (by omega) i rfl) isLink

/-- The reading order from the root visits every place exactly once. -/
theorem readingOrder_perm (formula : Formula) :
    (formula.arena.readingOrder formula.rootPlace).Perm (List.finRange formula.arena.size) := by
  have length : (formula.arena.readingOrder formula.rootPlace).length = formula.arena.size := by
    rw [← List.length_map (f := formula.arena.formulaAt), map_formulaAt_readingOrder_root,
      length_subformulas, size_arena, length_levelOrder]
  have all : List.finRange formula.arena.size ⊆ formula.arena.readingOrder formula.rootPlace :=
    fun k _ => mem_readingOrder_root formula k
  have within := List.subperm_of_subset (List.nodup_finRange _) all
  exact (within.perm_of_length_le (by simp [length])).symm

theorem nodup_readingOrder (formula : Formula) :
    (formula.arena.readingOrder formula.rootPlace).Nodup :=
  formula.readingOrder_perm.symm.nodup (List.nodup_finRange _)

end Formula

end TruthTable
