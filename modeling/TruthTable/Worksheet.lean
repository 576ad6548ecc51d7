import TruthTable.Arena.Layout

/-!
# Worksheets

A worksheet is a formula laid out for evaluation, with one truth value for each node: the values
of the last evaluation, or false before there was any. An evaluation sweeps the nodes from the
last to the first and writes every value. A value is read only after it has been written, since
links lead to later nodes.
-/

namespace TruthTable

/-- The nodes and the symbols of a formula, and the truth values of its nodes. -/
structure Worksheet where
  arena : Arena
  nonempty : 0 < arena.size
  symbols : List String
  truth : Vector Bool arena.size

namespace Worksheet

/-- The worksheet of a formula that has not been evaluated. -/
def ofFormula (formula : Formula) : Worksheet where
  arena := formula.arena
  nonempty := formula.size_arena_pos
  symbols := formula.symbols
  truth := Vector.replicate _ false

/-- The place of the whole formula. -/
def root (sheet : Worksheet) : Fin sheet.arena.size :=
  ⟨0, sheet.nonempty⟩

/-- The number of nodes. -/
def size (sheet : Worksheet) : Nat :=
  sheet.arena.size

/-- The places of the nodes in reading order. -/
def readingOrder (sheet : Worksheet) : List (Fin sheet.arena.size) :=
  sheet.arena.readingOrder sheet.root

/-- The truth value of the whole formula in the last evaluation. -/
def value (sheet : Worksheet) : Bool :=
  sheet.truth[sheet.root]

end Worksheet

/-- The value of a node, given the values of its operands. -/
def Arena.valueAt (arena : Arena) (valuation : Valuation) (truth : Vector Bool arena.size)
    (i : Fin arena.size) : Bool :=
  match arena.node i with
  | .symbol name => valuation.value name
  | .constant value => (Connective.constant value).apply
  | .not _ operand => Connective.not.apply (truth.get operand.1)
  | .binary op _ left right => (Connective.binary op).apply (truth.get left.1) (truth.get right.1)

/-- The values of all nodes, written over older ones from the last node to the first. -/
def Arena.sweep (arena : Arena) (valuation : Valuation) (truth : Vector Bool arena.size) :
    Vector Bool arena.size :=
  arena.size.foldRev (fun i h truth => truth.set i (arena.valueAt valuation truth ⟨i, h⟩)) truth

namespace Worksheet

/-- The worksheet after an evaluation. -/
def evaluate (sheet : Worksheet) (valuation : Valuation) : Worksheet :=
  { sheet with truth := sheet.arena.sweep valuation sheet.truth }

/-- The valuation of a row. -/
def valuation (sheet : Worksheet) (order : RowOrder) (row : UInt64) : Valuation :=
  .ofRow order sheet.symbols row

/-- The worksheet after an evaluation for a row. -/
def evaluateRow (sheet : Worksheet) (order : RowOrder) (row : UInt64) : Worksheet :=
  sheet.evaluate (sheet.valuation order row)

end Worksheet

end TruthTable
