/-!
# Connectives

The truth constants, negation and seven connectives of two operands, with their truth functions.
-/

namespace TruthTable

/-- The connectives of two operands. -/
inductive BinaryOp where
  | and
  | or
  | implies
  | iff
  | nand
  | nor
  | xor
  deriving DecidableEq, Repr

/-- The truth function of a connective of two operands. -/
def BinaryOp.apply : BinaryOp → Bool → Bool → Bool
  | .and, a, b => a && b
  | .or, a, b => a || b
  | .implies, a, b => !a || b
  | .iff, a, b => a == b
  | .nand, a, b => !(a && b)
  | .nor, a, b => !(a || b)
  | .xor, a, b => a != b

/-- A word of the logical vocabulary: a truth constant, negation or a connective of two operands. -/
inductive Connective where
  | constant (value : Bool)
  | not
  | binary (op : BinaryOp)
  deriving DecidableEq, Repr

namespace Connective

/-- The truth functions of as many operands as a connective has. -/
abbrev TruthFunction : Connective → Type
  | .constant _ => Bool
  | .not => Bool → Bool
  | .binary _ => Bool → Bool → Bool

/-- The truth function of a connective. -/
def apply : (connective : Connective) → connective.TruthFunction
  | .constant value => value
  | .not => fun a => !a
  | .binary op => op.apply

end Connective

end TruthTable
