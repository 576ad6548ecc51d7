import TruthTable.Formula

/-!
# Arenas

An arena holds the nodes of formulas in a row. A node names its operands by their places, and
every such link leads to a later node. So a walk along the links ends, and a sweep from the last
node to the first meets each operand before the connective that needs it. Two nodes may share an
operand, and a node may be nobody's operand.
-/

namespace TruthTable

/-- A symbol, a truth constant, or a connective with links to its operands. -/
inductive Node (Link : Type) where
  | symbol (name : String)
  | constant (value : Bool)
  | not (spelling : String) (operand : Link)
  | binary (op : BinaryOp) (spelling : String) (left right : Link)
  deriving DecidableEq, Repr

namespace Node

variable {Link Target : Type}

/-- The links to the operands, from left to right. -/
def links : Node Link → List Link
  | .symbol _ | .constant _ => []
  | .not _ operand => [operand]
  | .binary _ _ left right => [left, right]

/-- The node with every link changed by a function that needs to know something of it. -/
def pmap {p : Link → Prop} (f : (link : Link) → p link → Target) :
    (node : Node Link) → (∀ link ∈ node.links, p link) → Node Target
  | .symbol name, _ => .symbol name
  | .constant value, _ => .constant value
  | .not spelling operand, h => .not spelling (f operand (h operand (by simp [links])))
  | .binary op spelling left right, h =>
    .binary op spelling (f left (h left (by simp [links]))) (f right (h right (by simp [links])))

/-- Whether every link leads to a later one of the nodes. -/
def LinksLater (nodes : Array (Node Nat)) : Prop :=
  ∀ (i : Nat) (h : i < nodes.size), ∀ j ∈ nodes[i].links, i < j ∧ j < nodes.size

instance (nodes : Array (Node Nat)) : Decidable (LinksLater nodes) :=
  inferInstanceAs (Decidable (∀ (i : Nat) (h : i < nodes.size), ∀ j ∈ nodes[i].links, _))

end Node

/-- Nodes in a row whose links lead to later nodes. -/
structure Arena where
  nodes : Array (Node Nat)
  linksLater : Node.LinksLater nodes

namespace Arena

/-- The arena of some nodes, if their links lead to later nodes. -/
def ofNodes? (nodes : Array (Node Nat)) : Option Arena :=
  if h : Node.LinksLater nodes then some ⟨nodes, h⟩ else none

/-- The number of nodes. -/
abbrev size (arena : Arena) : Nat :=
  arena.nodes.size

/-- A place behind another one. -/
abbrev Later (arena : Arena) (i : Fin arena.size) : Type :=
  { j : Fin arena.size // i < j }

/-- The node at a place. Its links are known to be later places. -/
def node (arena : Arena) (i : Fin arena.size) : Node (arena.Later i) :=
  arena.nodes[i].pmap (fun j later => ⟨⟨j, later.2⟩, later.1⟩) (arena.linksLater i i.isLt)

/-- The formula that starts at a place. -/
def formulaAt (arena : Arena) (i : Fin arena.size) : Formula :=
  match arena.node i with
  | .symbol name => .symbol name
  | .constant value => .constant value
  | .not spelling operand => .not spelling (arena.formulaAt operand.1)
  | .binary op spelling left right =>
    .binary op spelling (arena.formulaAt left.1) (arena.formulaAt right.1)
termination_by arena.size - i
decreasing_by
  · have := operand.2; omega
  · have := left.2; omega
  · have := right.2; omega

/-- The places of the formula that starts at a place, in reading order: a negation comes before
its operand, a connective of two operands between them. -/
def readingOrder (arena : Arena) (i : Fin arena.size) : List (Fin arena.size) :=
  match arena.node i with
  | .symbol _ | .constant _ => [i]
  | .not _ operand => i :: arena.readingOrder operand.1
  | .binary _ _ left right => arena.readingOrder left.1 ++ i :: arena.readingOrder right.1
termination_by arena.size - i
decreasing_by
  · have := operand.2; omega
  · have := left.2; omega
  · have := right.2; omega

end Arena

end TruthTable
