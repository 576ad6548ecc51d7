import TruthTable.Formula.Grammar

/-!
# Why a text is no formula

An error has a cause and a place. The place is the first token that no formula goes on with, or
the end of the text where more was due, or, where the nesting is too deep, the first token beyond
the limit.
-/

namespace TruthTable

/-- What is wrong with a text. A cause that names a token keeps its raw text. -/
inductive ParseError.Cause where
  /-- The nesting goes beyond the height limit. -/
  | tooDeep
  /-- The text ends where a formula is due. -/
  | missingFormula
  /-- The text ends where a connective of two operands is due. -/
  | missingConnective
  /-- The text ends inside a pair of parentheses. -/
  | missingClose
  /-- A closing parenthesis stands where a formula is due. -/
  | strayClose
  /-- A connective of two operands stands where a formula is due. -/
  | missingLeft (found : String)
  /-- Another token stands where a connective of two operands is due. -/
  | notConnective (found : String)
  /-- Another token stands where a closing parenthesis is due. -/
  | notClose (found : String)
  /-- A closing parenthesis has no partner. -/
  | unmatchedClose
  deriving DecidableEq, Repr

/-- The words for a cause. -/
def ParseError.Cause.description : ParseError.Cause → String
  | .tooDeep => "formula is nested deeper than " ++ toString Formula.heightLimit ++ " levels"
  | .missingFormula => "unexpected end of input, expected a formula"
  | .missingConnective => "unexpected end of input, expected a binary connective"
  | .missingClose => "missing closing parenthesis"
  | .strayClose => "unexpected ')', expected a formula"
  | .missingLeft found => "'" ++ found ++ "' is missing its left operand"
  | .notConnective found => "expected a binary connective, found '" ++ found ++ "'"
  | .notClose found => "expected ')', found '" ++ found ++ "'"
  | .unmatchedClose => "unmatched ')'"

/-- A cause with the position it applies to, in characters from the start of the text. -/
structure ParseError where
  position : Int
  cause : ParseError.Cause
  deriving DecidableEq, Repr

namespace ParseError

/-- A description together with a position. -/
def locate (position : Int) (description : String) : String :=
  description ++ " at position " ++ toString position

/-- The whole message of an error. -/
def message (error : ParseError) : String :=
  locate error.position error.cause.description

end ParseError

end TruthTable
