import TruthTable.Formula.ParseError

/-!
# Reading a text

A reader takes tokens from a cursor and answers with a result or an error. In both cases the
cursor tells how far the reader came.

The implicit closing parenthesis stands for the end of the text. Where a formula or a connective
is due it counts as that end and is not taken; where a closing parenthesis is due it is taken like
a typed one.

The outermost pair of parentheses may be missing. Two signs show it: there are fewer opening
parentheses than connectives of two operands, or a formula is complete and tokens are left. In
both cases the tokens are read inside an implicit pair, and that reading decides. If it leaves
tokens, a closing parenthesis of the text has closed the implicit pair.
-/

namespace TruthTable

/-- A place in a list of tokens: those already taken, the last one first, and those to come. -/
structure Cursor where
  taken : List Token
  rest : List Token
  deriving DecidableEq, Repr

namespace Cursor

/-- The place in front of all tokens. -/
def start (tokens : List Token) : Cursor :=
  ⟨[], tokens⟩

/-- The position just behind the last taken token that was typed. -/
def typedEnd (cursor : Cursor) : Int :=
  match cursor.taken.find? (!·.implicit) with
  | some token => token.stop
  | none => 0

/-- The position of the next token, or the typed end where no typed token comes next. -/
def nextPosition (cursor : Cursor) : Int :=
  match cursor.rest with
  | token :: _ => if token.implicit then cursor.typedEnd else token.position
  | [] => cursor.typedEnd

end Cursor

/-- A computation that takes tokens and can fail. -/
abbrev Reader := EStateM ParseError Cursor

namespace Reader

/-- Fails at a position. -/
def failAt {α : Type} (position : Int) (cause : ParseError.Cause) : Reader α :=
  throw ⟨position, cause⟩

/-- Takes the next token. At the end of the tokens it fails with the given cause. -/
def next (atEnd : ParseError.Cause) : Reader Token := fun cursor =>
  match cursor.rest with
  | token :: rest => .ok token ⟨token :: cursor.taken, rest⟩
  | [] => .error ⟨cursor.typedEnd, atEnd⟩ cursor

/-- Takes the next token, but sees the end of the text in the implicit closing parenthesis. -/
def nextTyped (atEnd : ParseError.Cause) : Reader Token := fun cursor =>
  match cursor.rest with
  | token :: _ =>
    if token.implicit && token.kind == .closeParen then .error ⟨cursor.typedEnd, atEnd⟩ cursor
    else next atEnd cursor
  | [] => next atEnd cursor

/-- Reads what follows an opening parenthesis: an operand, a connective, an operand and the
closing parenthesis. -/
def pair (operand : Reader Formula) : Reader Formula := do
  let left ← operand
  let sign ← nextTyped .missingConnective
  match sign.kind with
  | .connective (.binary op) =>
    let right ← operand
    let close ← next .missingClose
    if close.kind = .closeParen then
      return .binary op sign.raw left right
    else
      failAt close.position (.notClose close.raw)
  | _ => failAt sign.position (.notConnective sign.raw)

/-- Reads a formula of at most `levels` levels. A formula without a level left is refused before
any of its tokens is looked at. -/
def formula (levels : Nat) : Reader Formula :=
  match levels with
  | 0 => do failAt (← get).nextPosition .tooDeep
  | levels + 1 => do
    let token ← nextTyped .missingFormula
    match token.kind with
    | .symbol => return .symbol token.raw
    | .connective (.constant value) => return .constant value
    | .connective .not => return .not token.raw (← formula levels)
    | .connective (.binary _) => failAt token.position (.missingLeft token.raw)
    | .openParen => pair (formula levels)
    | .closeParen => failAt token.position .strayClose

end Reader

namespace Formula

/-- Reads all tokens as one formula inside an implicit pair of parentheses. -/
def ofTokensEnclosed (length : Int) (tokens : List Token) : Except ParseError Formula :=
  match Reader.formula heightLimit (.start (Token.enclose length tokens)) with
  | .error error _ => .error error
  | .ok formula ⟨_, []⟩ => .ok formula
  | .ok _ ⟨taken, _ :: _⟩ =>
    .error ⟨(taken.head?.map (·.position)).getD 0, .unmatchedClose⟩

/-- Reads all tokens as one formula, and inside an implicit pair if one formula does not take them
all. -/
def ofTokensBare (length : Int) (tokens : List Token) : Except ParseError Formula :=
  match Reader.formula heightLimit (.start tokens) with
  | .error error _ => .error error
  | .ok formula ⟨_, []⟩ => .ok formula
  | .ok _ ⟨_, _ :: _⟩ => ofTokensEnclosed length tokens

/-- Reads all tokens of a text of `length` characters as one formula. -/
def ofTokens (length : Int) (tokens : List Token) : Except ParseError Formula :=
  if Token.lacksParen tokens then ofTokensEnclosed length tokens else ofTokensBare length tokens

/-- Reads a text. A text without tokens has no formula and no error. -/
def parse (text : String) : Except ParseError (Option Formula) :=
  match Token.ofText text with
  | [] => .ok none
  | token :: rest => (ofTokens text.length (token :: rest)).map some

end Formula

end TruthTable
