import TruthTable.Formula
import TruthTable.Text
import TruthTable.Token

/-!
# The grammar of formulas

A formula is a symbol, a truth constant, a negation sign followed by a formula, or two formulas
with a connective between them inside a pair of parentheses. There is no precedence: every
connective of two operands brings its own pair.

`Formula.Derives` is this grammar as a relation between token lists and trees. It looks at the
kinds of the tokens and keeps the raw text of symbols and connectives. `Formula.WellFormed` tells
the trees of the grammar from those that no text has.
-/

namespace TruthTable.Formula

/-- `Derives tokens formula` says that the tokens spell the formula. -/
inductive Derives : List Token → Formula → Prop
  | symbol {token : Token} :
      token.kind = .symbol → Derives [token] (.symbol token.raw)
  | constant {token : Token} {value : Bool} :
      token.kind = .connective (.constant value) → Derives [token] (.constant value)
  | not {sign : Token} {tokens : List Token} {operand : Formula} :
      sign.kind = .connective .not → Derives tokens operand →
      Derives (sign :: tokens) (.not sign.raw operand)
  | binary {first sign last : Token} {before after : List Token} {op : BinaryOp}
      {left right : Formula} :
      first.kind = .openParen → Derives before left → sign.kind = .connective (.binary op) →
      Derives after right → last.kind = .closeParen →
      Derives (first :: (before ++ sign :: (after ++ [last]))) (.binary op sign.raw left right)

/-- Whether a text can be the name of a symbol: it is a word, and no spelling of a connective. -/
def IsName (text : String) : Prop :=
  text ≠ "" ∧ (∀ c ∈ text.toList, c ≠ '(' ∧ c ≠ ')' ∧ Text.isBlank c = false) ∧
    Spelling.find? text = none

/-- Whether a text is an accepted spelling of a connective. -/
def Spells (text : String) (connective : Connective) : Prop :=
  (Spelling.find? text).map (·.connective) = some connective

instance (text : String) (connective : Connective) : Decidable (Spells text connective) :=
  inferInstanceAs (Decidable (_ = some connective))

/-- Whether every symbol has a name and every connective is spelled as what it means. -/
def WellSpelled : Formula → Prop
  | .symbol name => IsName name
  | .constant _ => True
  | .not spelling operand => Spells spelling .not ∧ operand.WellSpelled
  | .binary op spelling left right =>
    Spells spelling (.binary op) ∧ left.WellSpelled ∧ right.WellSpelled

/-- The greatest height of a formula that is read. -/
def heightLimit : Nat := 512

/-- Whether a formula is one that a text can have. -/
def WellFormed (formula : Formula) : Prop :=
  formula.WellSpelled ∧ formula.height ≤ heightLimit

end TruthTable.Formula
