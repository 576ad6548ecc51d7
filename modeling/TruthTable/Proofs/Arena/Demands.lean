import Mathlib.Data.Int.ModEq
import TruthTable.Proofs.Arena.Levels
import TruthTable.Proofs.Arena.Spans
import TruthTable.Proofs.Formula.AcceptedTexts

/-!
# The demands of the parentheses

When parentheses are handed out, each place is passed a demand: the signed count that the formula
there must carry. A negation passes on what is demanded behind it, and nothing of what is demanded
in front. A connective of two operands passes a demand that is larger by one to the one operand, and
a demand of one to the other. So a demand is never larger than its place is deep, and the count of a
node is the part of the demand that the node keeps (`Node.share`).

`Arena.handOut?` hands out parentheses with numbers of 32 bits. It keeps a record of the demands and
gives up where a number needs more bits. Its steps are those of `Arena.distribute`
(`Arena.handOut?_not`, `Arena.handOut?_binary`), and `Arena.HandsOut` collects what is known of a
run that does not give up, with one lemma for each kind of node. From one level to the next a demand
becomes larger by one at most while the formula becomes lower by one at least. So a run that starts
with room for the height of its formula never gives up (`Arena.exists_handOut?`).

No demand is lost: on either side, the counts ask for what was demanded there and for one
parenthesis for each connective of two operands (`Arena.parentheses_shares`).
-/

namespace TruthTable

/-! ## Numbers of 32 bits -/

/-- The number of 32 bits with this value, if there is one. -/
def narrow? (value : Int) : Option Int32 :=
  if -2 ^ 31 ≤ value ∧ value < 2 ^ 31 then some (Int32.ofInt value) else none

theorem toInt_ofInt_of_range {value : Int} (low : -2 ^ 31 ≤ value) (high : value < 2 ^ 31) :
    (Int32.ofInt value).toInt = value := by
  rw [Int32.toInt_ofInt]
  apply Int.bmod_eq_of_le
  · exact low
  · exact high

theorem narrow?_eq_some_iff {value : Int} {number : Int32} :
    narrow? value = some number ↔ number.toInt = value := by
  unfold narrow?
  constructor
  · intro narrowed
    split at narrowed
    case isTrue range =>
      cases narrowed
      exact toInt_ofInt_of_range range.1 range.2
    case isFalse => cases narrowed
  · rintro rfl
    rw [if_pos ⟨number.le_toInt, number.toInt_lt⟩, Int32.ofInt_toInt]

/-- The demands on the two operands of a connective that must carry `demand` and a pair of its own,
if 32 bits are enough for them. -/
def operandDemands? (demand : Int32) : Option (Int32 × Int32) :=
  if demand < 0 then (narrow? (demand.toInt - 1)).map (·, 1)
  else (narrow? (demand.toInt + 1)).map (-1, ·)

theorem operandDemands?_eq_some_iff {demand leftDemand rightDemand : Int32} :
    operandDemands? demand = some (leftDemand, rightDemand) ↔
      leftDemand.toInt = min demand.toInt 0 - 1 ∧ rightDemand.toInt = max demand.toInt 0 + 1 := by
  have sign : demand < 0 ↔ demand.toInt < 0 := Int32.lt_iff_toInt_lt
  have one : (1 : Int32).toInt = 1 := rfl
  have minusOne : (-1 : Int32).toInt = -1 := rfl
  unfold operandDemands?
  split
  case isTrue below =>
    rw [sign] at below
    simp only [Option.map_eq_some_iff, Prod.mk.injEq, narrow?_eq_some_iff, ← Int32.toInt_inj]
    constructor
    · rintro ⟨less, lessEq, same, rest⟩
      omega
    · intro ⟨inFront, behind⟩
      exact ⟨leftDemand, by omega, rfl, by omega⟩
  case isFalse notBelow =>
    rw [sign] at notBelow
    simp only [Option.map_eq_some_iff, Prod.mk.injEq, narrow?_eq_some_iff, ← Int32.toInt_inj]
    constructor
    · rintro ⟨more, moreEq, rest, same⟩
      omega
    · intro ⟨inFront, behind⟩
      exact ⟨rightDemand, by omega, by omega, rfl⟩

/-- Both demands need room for one parenthesis more at most. -/
theorem exists_operandDemands? {demand : Int32} (room : demand.toInt.natAbs + 1 < 2 ^ 31) :
    ∃ leftDemand rightDemand, operandDemands? demand = some (leftDemand, rightDemand) :=
  ⟨.ofInt (min demand.toInt 0 - 1), .ofInt (max demand.toInt 0 + 1),
    operandDemands?_eq_some_iff.mpr
      ⟨toInt_ofInt_of_range (by omega) (by omega), toInt_ofInt_of_range (by omega) (by omega)⟩⟩

/-! ## Handing out with numbers of 32 bits -/

/-- How far parentheses are handed out: the counts of the places, and the demands that were passed
on, each with the place that it was passed to. -/
structure Handout (size : Nat) where
  counts : Vector Int32 size
  demands : List (Fin size × Int32)
  deriving DecidableEq, Repr

namespace Handout

variable {size : Nat}

/-- Before anything is handed out. -/
def empty (size : Nat) : Handout size :=
  ⟨Vector.replicate size 0, []⟩

/-- A place is passed a demand and keeps a count. -/
def visit (handout : Handout size) (i : Fin size) (demand kept : Int32) : Handout size :=
  ⟨handout.counts.set i kept i.isLt, handout.demands ++ [(i, demand)]⟩

/-- The counts as integers. -/
def values (handout : Handout size) : Vector Int size :=
  handout.counts.map Int32.toInt

theorem values_empty : (empty size).values = Vector.replicate size 0 := by
  rw [values, empty, Vector.map_replicate]
  rfl

theorem values_visit (handout : Handout size) (i : Fin size) (demand kept : Int32) :
    (handout.visit i demand kept).values = handout.values.set i kept.toInt i.isLt := by
  rw [values, visit, Vector.map_set, values]

theorem get_values_visit (handout : Handout size) (i : Fin size) (demand kept : Int32) :
    (handout.visit i demand kept).values.get i = kept.toInt := by
  rw [values_visit]
  exact Vector.getElem_set_self i.isLt

end Handout

namespace Arena

/-- Hands the parentheses that a formula must carry to the nodes that start or end it, and records
every demand. There is no answer if a demand needs more than 32 bits. -/
def handOut? (arena : Arena) (i : Fin arena.size) (demand : Int32)
    (handout : Handout arena.size) : Option (Handout arena.size) :=
  match arena.node i with
  | .symbol _ | .constant _ => some (handout.visit i demand demand)
  | .not _ operand =>
    if demand < 0 then arena.handOut? operand.1 0 (handout.visit i demand demand)
    else arena.handOut? operand.1 demand (handout.visit i demand 0)
  | .binary _ _ left right => do
    let (leftDemand, rightDemand) ← operandDemands? demand
    let handout ← arena.handOut? left.1 leftDemand (handout.visit i demand 0)
    arena.handOut? right.1 rightDemand handout
termination_by arena.size - i
decreasing_by
  · have := operand.2; omega
  · have := operand.2; omega
  · have := left.2; omega
  · have := right.2; omega

variable {arena : Arena} {i : Fin arena.size} {demand : Int32}
  {before after : Handout arena.size}

theorem handOut?_symbol {name : String} (h : arena.node i = .symbol name) :
    arena.handOut? i demand before = some (before.visit i demand demand) := by
  rw [handOut?, h]

theorem handOut?_constant {value : Bool} (h : arena.node i = .constant value) :
    arena.handOut? i demand before = some (before.visit i demand demand) := by
  rw [handOut?, h]

/-- A negation keeps what is demanded in front and passes on what is demanded behind. -/
theorem handOut?_not {spelling : String} {operand : arena.Later i}
    (h : arena.node i = .not spelling operand) (demand : Int32) (before : Handout arena.size) :
    ∃ kept passedOn : Int32, kept.toInt = min demand.toInt 0 ∧
      passedOn.toInt = max demand.toInt 0 ∧
      arena.handOut? i demand before =
        arena.handOut? operand.1 passedOn (before.visit i demand kept) := by
  have sign : demand < 0 ↔ demand.toInt < 0 := Int32.lt_iff_toInt_lt
  have zero : (0 : Int32).toInt = 0 := rfl
  rw [handOut?, h]
  by_cases below : demand < 0
  · have inFront : demand.toInt < 0 := sign.mp below
    exact ⟨demand, 0, by omega, by omega, if_pos below⟩
  · have behind : ¬demand.toInt < 0 := sign.not.mp below
    exact ⟨0, demand, by omega, by omega, if_neg below⟩

theorem handOut?_binary {op : BinaryOp} {spelling : String} {left right : arena.Later i}
    (h : arena.node i = .binary op spelling left right) :
    arena.handOut? i demand before =
      (operandDemands? demand).bind fun demands =>
        (arena.handOut? left.1 demands.1 (before.visit i demand 0)).bind
          (arena.handOut? right.1 demands.2) := by
  rw [handOut?, h]
  rfl

end Arena

/-! ## What is handed out -/

/-- What a node keeps of a demand for its own count. -/
def Node.share {Link : Type} (demand : Int) : Node Link → Int
  | .symbol _ | .constant _ => demand
  | .not _ _ => min demand 0
  | .binary _ _ _ _ => 0

theorem Node.natAbs_share_le {Link : Type} (demand : Int) (node : Node Link) :
    (node.share demand).natAbs ≤ demand.natAbs := by
  cases node <;> rw [share] <;> omega

namespace Arena

variable {arena : Arena} {i x : Fin arena.size} {demand : Int32}
  {before after : Handout arena.size}

/-- Whether a demand was passed to a place below `i`, and is larger than the demand at `i` by no
more than the place is deep below `i`. -/
def Within (arena : Arena) (i : Fin arena.size) (demand : Int32)
    (passed : Fin arena.size × Int32) : Prop :=
  ∃ depth, passed.1 ∈ arena.level i depth ∧
    passed.2.toInt.natAbs ≤ demand.toInt.natAbs + depth

theorem Within.self : arena.Within i demand (i, demand) :=
  ⟨0, List.mem_singleton_self i, Nat.le_refl _⟩

/-- One link deeper a demand may be larger by one. -/
theorem Within.of_operand {operand : Fin arena.size} {passedOn : Int32}
    {passed : Fin arena.size × Int32} (within : arena.Within operand passedOn passed)
    (isOperand : operand ∈ arena.operandsAt i)
    (larger : passedOn.toInt.natAbs ≤ demand.toInt.natAbs + 1) :
    arena.Within i demand passed := by
  obtain ⟨depth, inLevel, bound⟩ := within
  exact ⟨depth + 1, mem_level_succ isOperand inLevel, by omega⟩

/-- What is known when `demand` was handed out to the formula at `i`, and `passed` are the demands
of all visits on the way. Every place of the formula was visited, with a demand that is within its
depth, and kept a part of this demand. The counts are those that numbers without a bound give. -/
structure HandsOut (arena : Arena) (i : Fin arena.size) (demand : Int32)
    (before : Handout arena.size) (passed : List (Fin arena.size × Int32))
    (after : Handout arena.size) : Prop where
  demands_eq : after.demands = before.demands ++ passed
  values_eq : after.values = arena.distribute i demand.toInt before.values
  perm : (passed.map (·.1)).Perm (arena.readingOrder i)
  within : ∀ visit ∈ passed, arena.Within i demand visit
  keeps : ∀ x ∈ arena.readingOrder i,
    ∃ asked, (x, asked) ∈ passed ∧ after.values.get x = (arena.node x).share asked.toInt

namespace HandsOut

theorem unchanged {passed : List (Fin arena.size × Int32)}
    (handsOut : arena.HandsOut i demand before passed after)
    (outside : x ∉ arena.readingOrder i) : after.values.get x = before.values.get x := by
  rw [handsOut.values_eq]
  exact distribute_of_not_mem outside

theorem leaf (only : arena.readingOrder i = [i])
    (all : ∀ asked, (arena.node i).share asked = asked)
    (written : arena.distribute i demand.toInt before.values =
      before.values.set i demand.toInt i.isLt) :
    arena.HandsOut i demand before [(i, demand)] (before.visit i demand demand) where
  demands_eq := rfl
  values_eq := by rw [written, Handout.values_visit]
  perm := by rw [only]; rfl
  within := by
    intro visit mem
    obtain rfl := List.mem_singleton.mp mem
    exact .self
  keeps := by
    intro x mem
    rw [only] at mem
    obtain rfl := List.mem_singleton.mp mem
    exact ⟨demand, List.mem_singleton_self _, by rw [Handout.get_values_visit, all]⟩

theorem not {spelling : String} {operand : arena.Later i} {kept passedOn : Int32}
    {passed : List (Fin arena.size × Int32)} (h : arena.node i = .not spelling operand)
    (keptEq : kept.toInt = min demand.toInt 0) (passedEq : passedOn.toInt = max demand.toInt 0)
    (below : arena.HandsOut operand.1 passedOn (before.visit i demand kept) passed after) :
    arena.HandsOut i demand before ((i, demand) :: passed) after where
  demands_eq := by
    rw [below.demands_eq, Handout.visit, List.append_assoc]
    rfl
  values_eq := by
    rw [below.values_eq, Handout.values_visit, distribute_not h, keptEq, passedEq]
  perm := by
    rw [readingOrder_not h]
    exact below.perm.cons i
  within := by
    intro visit mem
    rcases List.mem_cons.mp mem with rfl | mem
    · exact .self
    · apply (below.within visit mem).of_operand
      · simp [operandsAt, h, Node.links]
      · omega
  keeps := by
    intro x mem
    by_cases inOperand : x ∈ arena.readingOrder operand.1
    · obtain ⟨asked, visited, share⟩ := below.keeps x inOperand
      exact ⟨asked, List.mem_cons_of_mem _ visited, share⟩
    · rw [readingOrder_not h] at mem
      obtain rfl := (List.mem_cons.mp mem).resolve_right inOperand
      refine ⟨demand, List.mem_cons_self, ?_⟩
      rw [below.unchanged inOperand, Handout.get_values_visit, keptEq, h, Node.share]

theorem binary {op : BinaryOp} {spelling : String} {left right : arena.Later i}
    {leftDemand rightDemand : Int32} {between : Handout arena.size}
    {passedLeft passedRight : List (Fin arena.size × Int32)}
    (h : arena.node i = .binary op spelling left right)
    (leftEq : leftDemand.toInt = min demand.toInt 0 - 1)
    (rightEq : rightDemand.toInt = max demand.toInt 0 + 1)
    (inLeft : arena.HandsOut left.1 leftDemand (before.visit i demand 0) passedLeft between)
    (inRight : arena.HandsOut right.1 rightDemand between passedRight after) :
    arena.HandsOut i demand before ((i, demand) :: (passedLeft ++ passedRight)) after where
  demands_eq := by
    rw [inRight.demands_eq, inLeft.demands_eq, Handout.visit, List.append_assoc, List.append_assoc]
    rfl
  values_eq := by
    rw [inRight.values_eq, inLeft.values_eq, Handout.values_visit, distribute_binary h, leftEq,
      rightEq]
    rfl
  perm := by
    -- The connective is visited before its left operand, but read behind it.
    rw [readingOrder_binary h, List.map_cons, List.map_append]
    exact (List.Perm.cons i (inLeft.perm.append inRight.perm)).trans List.perm_middle.symm
  within := by
    intro visit mem
    rcases List.mem_cons.mp mem with rfl | mem
    · exact .self
    rcases List.mem_append.mp mem with mem | mem
    · apply (inLeft.within visit mem).of_operand
      · simp [operandsAt, h, Node.links]
      · omega
    · apply (inRight.within visit mem).of_operand
      · simp [operandsAt, h, Node.links]
      · omega
  keeps := by
    intro x mem
    by_cases memRight : x ∈ arena.readingOrder right.1
    · obtain ⟨asked, visited, share⟩ := inRight.keeps x memRight
      exact ⟨asked, List.mem_cons_of_mem _ (List.mem_append_right _ visited), share⟩
    rw [inRight.unchanged memRight]
    by_cases memLeft : x ∈ arena.readingOrder left.1
    · obtain ⟨asked, visited, share⟩ := inLeft.keeps x memLeft
      exact ⟨asked, List.mem_cons_of_mem _ (List.mem_append_left _ visited), share⟩
    rw [readingOrder_binary h, List.mem_append, or_iff_right memLeft, List.mem_cons,
      or_iff_left memRight] at mem
    obtain rfl := mem
    refine ⟨demand, List.mem_cons_self, ?_⟩
    rw [inLeft.unchanged memLeft, Handout.get_values_visit, h]
    rfl

end HandsOut

/-- What a run does that does not give up. This holds in every arena, also where operands are shared,
and for every demand. -/
theorem handsOut_of_eq_some (run : arena.handOut? i demand before = some after) :
    ∃ passed, arena.HandsOut i demand before passed after := by
  -- The cases of the reading order are those of a run, and they name the operands.
  fun_induction arena.readingOrder i generalizing demand before after with
  | case1 i name h =>
    rw [handOut?_symbol h] at run
    cases run
    exact ⟨_, .leaf (readingOrder_symbol h) (fun _ => by rw [h, Node.share]) (distribute_symbol h)⟩
  | case2 i value h =>
    rw [handOut?_constant h] at run
    cases run
    exact ⟨_, .leaf (readingOrder_constant h) (fun _ => by rw [h, Node.share])
      (distribute_constant h)⟩
  | case3 i spelling operand h ih =>
    obtain ⟨kept, passedOn, keptEq, passedEq, same⟩ := handOut?_not h demand before
    rw [same] at run
    obtain ⟨passed, below⟩ := ih run
    exact ⟨_, .not h keptEq passedEq below⟩
  | case4 i op spelling left right h ihLeft ihRight =>
    rw [handOut?_binary h] at run
    obtain ⟨⟨leftDemand, rightDemand⟩, demands, run⟩ := Option.bind_eq_some_iff.mp run
    obtain ⟨between, runLeft, runRight⟩ := Option.bind_eq_some_iff.mp run
    obtain ⟨leftEq, rightEq⟩ := operandDemands?_eq_some_iff.mp demands
    obtain ⟨passedLeft, inLeft⟩ := ihLeft runLeft
    obtain ⟨passedRight, inRight⟩ := ihRight runRight
    exact ⟨_, .binary h leftEq rightEq inLeft inRight⟩

/-- A run does not give up if the demand leaves room for the height of the formula. -/
theorem exists_handOut? (before : Handout arena.size)
    (room : demand.toInt.natAbs + (arena.formulaAt i).height ≤ 2 ^ 31) :
    ∃ after, arena.handOut? i demand before = some after := by
  fun_induction arena.readingOrder i generalizing demand before with
  | case1 i name h => exact ⟨_, handOut?_symbol h⟩
  | case2 i value h => exact ⟨_, handOut?_constant h⟩
  | case3 i spelling operand h ih =>
    rw [formulaAt_not h, Formula.height] at room
    obtain ⟨kept, passedOn, -, passedEq, same⟩ := handOut?_not h demand before
    rw [same]
    exact ih _ (by omega)
  | case4 i op spelling left right h ihLeft ihRight =>
    rw [formulaAt_binary h, Formula.height] at room
    -- A connective is higher than its operands, so one parenthesis more has room here already.
    have leaves : 0 < (arena.formulaAt left.1).height := Formula.height_pos _
    have roomHere : demand.toInt.natAbs + 1 < 2 ^ 31 := by omega
    obtain ⟨leftDemand, rightDemand, demands⟩ := exists_operandDemands? roomHere
    obtain ⟨leftEq, rightEq⟩ := operandDemands?_eq_some_iff.mp demands
    have roomLeft : leftDemand.toInt.natAbs + (arena.formulaAt left.1).height ≤ 2 ^ 31 := by omega
    have roomRight : rightDemand.toInt.natAbs + (arena.formulaAt right.1).height ≤ 2 ^ 31 := by
      omega
    obtain ⟨between, runLeft⟩ := ihLeft (before.visit i demand 0) roomLeft
    obtain ⟨after, runRight⟩ := ihRight between roomRight
    refine ⟨after, ?_⟩
    rw [handOut?_binary h, demands, Option.bind_some, runLeft, Option.bind_some, runRight]

end Arena

/-! ## What the counts ask for -/

theorem Node.isBinary_map {Link Target : Type} (f : Link → Target) (node : Node Link) :
    (node.map f).isBinary = node.isBinary := by
  cases node <;> rfl

namespace Side

/-- Whether a signed count asks for parentheses on this side. -/
def asks : Side → Int → Bool
  | first, count => count < 0
  | last, count => 0 < count

/-- The number of parentheses that some signed counts ask for on this side. -/
def parentheses (side : Side) (counts : List Int) : Nat :=
  ((counts.filter side.asks).map Int.natAbs).sum

variable (side : Side)

theorem parentheses_append (counts counts' : List Int) :
    side.parentheses (counts ++ counts') =
      side.parentheses counts + side.parentheses counts' := by
  rw [parentheses, List.filter_append, List.map_append, List.sum_append]
  rfl

theorem parentheses_perm {counts counts' : List Int} (perm : counts.Perm counts') :
    side.parentheses counts = side.parentheses counts' :=
  ((perm.filter side.asks).map Int.natAbs).sum_nat

theorem parentheses_singleton (count : Int) :
    side.parentheses [count] =
      match side with
      | first => (-count).toNat
      | last => count.toNat := by
  rw [parentheses, List.filter_singleton]
  cases side with
  | first => by_cases asked : count < 0 <;> simp [asks, asked] <;> omega
  | last => by_cases asked : 0 < count <;> simp [asks, asked] <;> omega

/-- A demand asks for the same in two parts: the part in front and the part behind. -/
theorem parentheses_parts (demand : Int) :
    side.parentheses [min demand 0] + side.parentheses [max demand 0] =
      side.parentheses [demand] := by
  simp only [parentheses_singleton]
  cases side <;> dsimp only <;> omega

/-- A pair that is added to both parts of a demand asks for one parenthesis more on each side. -/
theorem parentheses_pair (demand : Int) :
    side.parentheses [min demand 0 - 1] + side.parentheses [max demand 0 + 1] =
      side.parentheses [demand] + 1 := by
  simp only [parentheses_singleton]
  cases side <;> dsimp only <;> omega

end Side

/-- On each side, the shares of a formula ask for what is demanded there and for one parenthesis for
each connective of two operands. -/
theorem Arena.parentheses_shares {arena : Arena} {i : Fin arena.size} (side : Side)
    (demand : Int) :
    side.parentheses ((arena.formulaAt i).shares demand) =
      side.parentheses [demand] +
        (arena.readingOrder i).countP (fun j => (arena.node j).isBinary) := by
  fun_induction arena.readingOrder i generalizing demand with
  | case1 i name h =>
    rw [formulaAt_symbol h, Formula.shares, List.countP_singleton, h]
    rfl
  | case2 i value h =>
    rw [formulaAt_constant h, Formula.shares, List.countP_singleton, h]
    rfl
  | case3 i spelling operand h ih =>
    have sign : (arena.node i).isBinary = false := by rw [h]; rfl
    rw [formulaAt_not h, Formula.shares, ← List.singleton_append, side.parentheses_append, ih,
      List.countP_cons, sign, ← Nat.add_assoc, side.parentheses_parts]
    rfl
  | case4 i op spelling left right h ihLeft ihRight =>
    have sign : (arena.node i).isBinary = true := by rw [h]; rfl
    have atSign : side.parentheses [0] = 0 := by cases side <;> rfl
    have pair := side.parentheses_pair demand
    rw [formulaAt_binary h, Formula.shares, List.append_cons, side.parentheses_append,
      side.parentheses_append, atSign, ihLeft, ihRight, List.countP_append, List.countP_cons, sign,
      if_pos rfl]
    omega

namespace Formula

/-- On each side, the counts of a formula ask for one parenthesis for each connective of two
operands. -/
theorem parentheses_parenCounts (formula : Formula) (side : Side) :
    side.parentheses formula.arena.parenCounts.toList =
      formula.arena.nodes.countP Node.isBinary := by
  have order := formula.readingOrder_perm
  have counts : formula.arena.parenCounts.toList =
      (List.finRange formula.arena.size).map fun i => formula.arena.parenCounts[i] := by
    apply List.ext_getElem
    · simp
    · intro i _ _
      simp
  have nodes : formula.arena.nodes.countP Node.isBinary =
      (List.finRange formula.arena.size).countP fun i => (formula.arena.node i).isBinary := by
    rw [← Array.countP_toList, ← formula.arena.map_nodes_finRange, List.countP_map]
    apply List.countP_congr
    intro i _
    rw [Function.comp_apply, ← Arena.map_node, Node.isBinary_map]
  have nothing : side.parentheses [0] = 0 := by cases side <;> rfl
  have shares := Arena.parentheses_shares (i := formula.rootPlace) side 0
  rw [formulaAt_arena, nothing, Nat.zero_add] at shares
  rw [counts, side.parentheses_perm (order.symm.map _), map_parenCounts, shares, nodes,
    order.countP_eq]

/-! ## The demands of a formula -/

variable {formula : Formula}

/-- Parentheses are handed out to a formula with numbers of 32 bits, if it is not too high. -/
theorem exists_handsOut (formula : Formula) (below : formula.height < 2 ^ 31) :
    ∃ handout, formula.arena.handOut? formula.rootPlace 0 (.empty formula.arena.size) =
        some handout ∧
      formula.arena.HandsOut formula.rootPlace 0 (.empty formula.arena.size) handout.demands
        handout := by
  have room : (0 : Int32).toInt.natAbs +
      (formula.arena.formulaAt formula.rootPlace).height ≤ 2 ^ 31 := by
    rw [formula.formulaAt_arena]
    exact (Nat.zero_add _).trans_le below.le
  obtain ⟨handout, run⟩ := Arena.exists_handOut? (.empty formula.arena.size) room
  obtain ⟨passed, handsOut⟩ := Arena.handsOut_of_eq_some run
  obtain rfl : handout.demands = passed := handsOut.demands_eq
  exact ⟨handout, run, handsOut⟩

section Run

variable {handout : Handout formula.arena.size} {x : Fin formula.arena.size} {demand : Int32}
  (handsOut : formula.arena.HandsOut formula.rootPlace 0 (.empty formula.arena.size)
    handout.demands handout)

include handsOut

theorem values_eq_parenCounts : handout.values = formula.arena.parenCounts := by
  rw [handsOut.values_eq, Handout.values_empty, Arena.parenCounts, dif_pos formula.size_arena_pos]
  rfl

/-- A demand is not larger than its place is deep, and a place is less deep than the formula is
high. -/
theorem exists_depth (mem : (x, demand) ∈ handout.demands) :
    ∃ depth, (∀ d, x ∈ formula.arena.level formula.rootPlace d ↔ d = depth) ∧
      demand.toInt.natAbs ≤ depth ∧ depth ≤ formula.height - 1 := by
  obtain ⟨depth, inLevel, bound⟩ := handsOut.within (x, demand) mem
  have lower : (formula.arena.formulaAt x).height + depth ≤ _ :=
    Arena.height_formulaAt_level inLevel
  have leaves : 0 < (formula.arena.formulaAt x).height := height_pos _
  rw [formula.formulaAt_arena] at lower
  refine ⟨depth, fun d => ⟨fun mem => eq_of_mem_level mem inLevel, ?_⟩, ?_, by omega⟩
  · rintro rfl
    exact inLevel
  · exact bound.trans (Nat.zero_add depth).le

/-- Every count is what the node keeps of the demand that was passed to it. -/
theorem exists_demand (x : Fin formula.arena.size) :
    ∃ demand, (x, demand) ∈ handout.demands ∧
      formula.arena.parenCounts.get x = (formula.arena.node x).share demand.toInt := by
  rw [← values_eq_parenCounts handsOut]
  exact handsOut.keeps x (formula.mem_readingOrder_root x)

theorem natAbs_parenCounts_le (x : Fin formula.arena.size) :
    (formula.arena.parenCounts.get x).natAbs ≤ formula.height - 1 := by
  obtain ⟨demand, mem, kept⟩ := exists_demand handsOut x
  obtain ⟨depth, -, bound, inside⟩ := exists_depth handsOut mem
  rw [kept]
  exact (Node.natAbs_share_le _ _).trans (bound.trans inside)

end Run

/-- How large the demands of a formula are. If the height of a formula is less than `2 ^ 31`, its
parentheses can be handed out with numbers of 32 bits, and this gives the same counts. Every place
is passed one demand, which is not larger than the place is deep, and keeps a part of it; so the
counts are less than the formula is high. For a formula that was read from a text, all demands and
counts are at most 511. The counts in front of nodes and those behind nodes each ask for one
parenthesis for each connective of two operands. -/
theorem demands_within_depth (formula : Formula) :
    let arena := formula.arena
    let root := formula.rootPlace
    (formula.height < 2 ^ 31 →
      ∃ handout, arena.handOut? root 0 (.empty arena.size) = some handout ∧
        handout.values = arena.parenCounts ∧
        (handout.demands.map (·.1)).Perm (List.finRange arena.size) ∧
        (∀ x demand, (x, demand) ∈ handout.demands →
          ∃ depth : Nat, (∀ d, x ∈ arena.level root d ↔ d = depth) ∧
            -depth ≤ demand.toInt ∧ demand.toInt ≤ depth) ∧
        (∀ x, ∃ demand, (x, demand) ∈ handout.demands ∧
          arena.parenCounts.get x = (arena.node x).share demand.toInt) ∧
        ∀ x, (arena.parenCounts.get x).natAbs ≤ formula.height - 1) ∧
    (∀ text, parse text = .ok (some formula) →
      ∃ handout, arena.handOut? root 0 (.empty arena.size) = some handout ∧
        (∀ x demand, (x, demand) ∈ handout.demands →
          -511 ≤ demand.toInt ∧ demand.toInt ≤ 511) ∧
        ∀ x, -511 ≤ arena.parenCounts.get x ∧ arena.parenCounts.get x ≤ 511) ∧
    ((arena.parenCounts.toList.filter (· < 0)).map Int.natAbs).sum =
      arena.nodes.countP Node.isBinary ∧
    ((arena.parenCounts.toList.filter (0 < ·)).map Int.natAbs).sum =
      arena.nodes.countP Node.isBinary := by
  intro arena root
  refine ⟨fun below => ?_, fun text read => ?_, ?_, ?_⟩
  · obtain ⟨handout, run, handsOut⟩ := formula.exists_handsOut below
    refine ⟨handout, run, values_eq_parenCounts handsOut,
      handsOut.perm.trans formula.readingOrder_perm, fun x demand mem => ?_,
      exists_demand handsOut, natAbs_parenCounts_le handsOut⟩
    obtain ⟨depth, level, bound, -⟩ := exists_depth handsOut mem
    exact ⟨depth, level, by omega, by omega⟩
  · have low : formula.height ≤ 512 := (parse_eq_some_iff.mp read).2
    obtain ⟨handout, run, handsOut⟩ := formula.exists_handsOut (by omega)
    refine ⟨handout, run, fun x demand mem => ?_, fun x => ?_⟩
    · obtain ⟨depth, -, bound, inside⟩ := exists_depth handsOut mem
      omega
    · have bound : (arena.parenCounts.get x).natAbs ≤ formula.height - 1 :=
        natAbs_parenCounts_le handsOut x
      omega
  · exact formula.parentheses_parenCounts .first
  · exact formula.parentheses_parenCounts .last

/-- A chain on the left. At its end the demand is as large as the formula lets it be. -/
theorem demands_within_depth_of_left_chain :
    let formula : Formula :=
      .binary .implies "->"
        (.binary .or "|" (.binary .and "&" (.symbol "A") (.symbol "B")) (.symbol "C"))
        (.not "!" (.symbol "D"))
    let arena := formula.arena
    formula.height < 2 ^ 31 ∧ parse "((A & B) | C) -> ! D" = .ok (some formula) ∧
      (∃ handout,
        arena.handOut? formula.rootPlace 0 (.empty arena.size) = some handout ∧
          handout.demands.map (fun (x, demand) => (x.val, demand.toInt)) =
            [(0, 0), (1, -1), (3, -2), (6, -3), (7, 1), (4, 1), (2, 1), (5, 1)] ∧
          ∀ x, (arena.parenCounts.get x).natAbs ≤ formula.height - 1) ∧
      ∃ handout,
        arena.handOut? formula.rootPlace 0 (.empty arena.size) = some handout ∧
          ∀ x demand, (x, demand) ∈ handout.demands →
            -511 ≤ demand.toInt ∧ demand.toInt ≤ 511 := by
  intro formula arena
  have low : formula.height < 2 ^ 31 := by decide
  have read : parse "((A & B) | C) -> ! D" = .ok (some formula) := by decide +kernel
  have record : (arena.handOut? formula.rootPlace 0 (.empty arena.size)).map
      (fun handout => handout.demands.map fun (x, demand) => (x.val, demand.toInt)) =
        some [(0, 0), (1, -1), (3, -2), (6, -3), (7, 1), (4, 1), (2, 1), (5, 1)] := by
    decide +kernel
  obtain ⟨handed, parsed, -⟩ := demands_within_depth formula
  obtain ⟨handout, run, -, -, -, -, bound⟩ := handed low
  obtain ⟨handout', run', within, -⟩ := parsed _ read
  rw [run] at record
  exact ⟨low, read, ⟨handout, run, Option.some.inj record, bound⟩, handout', run', within⟩

end Formula

end TruthTable
