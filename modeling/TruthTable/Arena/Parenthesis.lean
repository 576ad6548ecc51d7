import TruthTable.Arena
import TruthTable.Text

/-!
# The parentheses of the nodes

Every connective of two operands has one pair of parentheses around all it spans. The pair is not
kept with the connective: its opening half goes to the first node of the span in reading order,
its closing half to the last one. A node then asks for parentheses on one side only, and a signed
count says which: below zero for opening ones in front of it, above zero for closing ones behind
it. Since a negation sign is the first of its span, opening parentheses stay in front of it and
closing ones go on to its operand.
-/

namespace TruthTable

namespace Arena

/-- Hands the parentheses that a formula must carry, a signed count, to the nodes that start or
end it. A connective adds a pair of its own: one more on the side that is asked for, or on its
right, and one on the other side. -/
def distribute (arena : Arena) (i : Fin arena.size) (demand : Int)
    (counts : Vector Int arena.size) : Vector Int arena.size :=
  match arena.node i with
  | .symbol _ | .constant _ => counts.set i demand i.isLt
  | .not _ operand =>
    if demand < 0 then arena.distribute operand.1 0 (counts.set i demand i.isLt)
    else arena.distribute operand.1 demand (counts.set i 0 i.isLt)
  | .binary _ _ left right =>
    let (leftDemand, rightDemand) := if demand < 0 then (demand - 1, 1) else (-1, demand + 1)
    arena.distribute right.1 rightDemand
      (arena.distribute left.1 leftDemand (counts.set i 0 i.isLt))
termination_by arena.size - i
decreasing_by
  · have := operand.2; omega
  · have := operand.2; omega
  · have := left.2; omega
  · have := right.2; omega

/-- The signed count of parentheses of every node, for the formula that starts at the first
place. A node that it reaches more than once keeps the count of the last visit. -/
def parenCounts (arena : Arena) : Vector Int arena.size :=
  if h : 0 < arena.size then arena.distribute ⟨0, h⟩ 0 (Vector.replicate arena.size 0)
  else Vector.replicate arena.size 0

end Arena

/-- The text with the parentheses that a signed count asks for. -/
def parenthesize (count : Int) (text : String) : String :=
  if count < 0 then Text.repeated count.natAbs '(' ++ text
  else text ++ Text.repeated count.natAbs ')'

end TruthTable
