import Std.Data.TreeSet
import TruthTable.Options

/-!
# Formulas

A propositional formula is a tree. A connective keeps the spelling it was written with next to
its meaning: the meaning decides the truth value, the spelling decides how the formula is shown.
Nothing forces the two to agree in a tree that is built by hand; `Formula.WellFormed` says when a
tree is one that can be read from a text.

The truth value is computed along the tree. It depends only on the values of the symbols that occur.
-/

namespace TruthTable

/-- A propositional formula. -/
inductive Formula where
  | symbol (name : String)
  | constant (value : Bool)
  | not (spelling : String) (operand : Formula)
  | binary (op : BinaryOp) (spelling : String) (left right : Formula)
  deriving DecidableEq, Repr

namespace Formula

/-- The immediate operands, from left to right. -/
def operands : Formula → List Formula
  | .symbol _ | .constant _ => []
  | .not _ operand => [operand]
  | .binary _ _ left right => [left, right]

/-- The number of nodes of the tree. -/
def size : Formula → Nat
  | .symbol _ | .constant _ => 1
  | .not _ operand => operand.size + 1
  | .binary _ _ left right => left.size + right.size + 1

/-- The number of nodes of some trees. -/
def totalSize : List Formula → Nat
  | [] => 0
  | formula :: rest => formula.size + totalSize rest

/-- The number of nodes on the longest way down. -/
def height : Formula → Nat
  | .symbol _ | .constant _ => 1
  | .not _ operand => operand.height + 1
  | .binary _ _ left right => max left.height right.height + 1

/-- The names of the symbols in reading order, as often as they occur. -/
def names : Formula → List String
  | .symbol name => [name]
  | .constant _ => []
  | .not _ operand => operand.names
  | .binary _ _ left right => left.names ++ right.names

/-- The names of the symbols in increasing order, each of them once. -/
def symbols (formula : Formula) : List String :=
  (Std.TreeSet.ofList formula.names).toList

/-- Every subformula in reading order: a negation comes before its operand, a connective of two
operands between them. -/
def subformulas : Formula → List Formula
  | .symbol name => [.symbol name]
  | .constant value => [.constant value]
  | .not spelling operand => .not spelling operand :: operand.subformulas
  | .binary op spelling left right =>
    left.subformulas ++ .binary op spelling left right :: right.subformulas

/-- The truth value under a valuation. -/
def evaluate (valuation : Valuation) : Formula → Bool
  | .symbol name => valuation.value name
  | .constant value => (Connective.constant value).apply
  | .not _ operand => Connective.not.apply (operand.evaluate valuation)
  | .binary op _ left right =>
    (Connective.binary op).apply (left.evaluate valuation) (right.evaluate valuation)

theorem size_pos (formula : Formula) : 0 < formula.size := by
  cases formula <;> simp [size]

theorem height_pos (formula : Formula) : 0 < formula.height := by
  cases formula <;> simp [height]

theorem size_eq_totalSize_operands (formula : Formula) :
    formula.size = totalSize formula.operands + 1 := by
  cases formula <;> simp [size, operands, totalSize]

theorem totalSize_append (before after : List Formula) :
    totalSize (before ++ after) = totalSize before + totalSize after := by
  induction before with
  | nil => simp [totalSize]
  | cons formula rest ih => simp [totalSize, ih, Nat.add_assoc]

theorem length_subformulas (formula : Formula) : formula.subformulas.length = formula.size := by
  induction formula with
  | symbol | constant => rfl
  | not _ _ ih => simp [subformulas, size, ih]
  | binary _ _ _ _ left right => simp [subformulas, size, left, right]; omega

theorem evaluate_congr {formula : Formula} {one other : Valuation}
    (agree : ∀ name ∈ formula.names, one.value name = other.value name) :
    formula.evaluate one = formula.evaluate other := by
  induction formula with
  | symbol name => exact agree name (by simp [names])
  | constant => rfl
  | not _ _ ih => rw [evaluate, evaluate, ih agree]
  | binary _ _ _ _ left right =>
    simp only [names, List.mem_append] at agree
    rw [evaluate, evaluate, left fun name h => agree name (.inl h),
      right fun name h => agree name (.inr h)]

end Formula

end TruthTable
