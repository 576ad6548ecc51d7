import TruthTable.Spelling
import TruthTable.Text

/-!
# Tokens

A token is a piece of text with its place and its meaning. Positions count characters from the
start of the text that is read. They are signed, because a pair of parentheses that nobody typed
can stand around the text, and its first one is at `-1`.

Each connective of two operands comes with one pair of parentheses. Only the outermost pair may
be left out. Where a text has fewer opening parentheses than such connectives, that pair is
missing, and an implicit one is put around the tokens: the first parenthesis at `-1`, the second
at the length of the text, so that no other token moves.

A text splits into parentheses, which stand for themselves, and words, which are the longest runs
of other characters that are not blank. Nothing but blanks is skipped. So `A&B` is one word, and
`A & B` is three.
-/

namespace TruthTable

/-- What a piece of text means. -/
inductive Kind where
  | openParen
  | closeParen
  | symbol
  | connective (connective : Connective)
  deriving DecidableEq, Repr

namespace Kind

/-- The kind of a text: a parenthesis, a spelling of the table, or else a symbol. -/
def ofText (text : String) : Kind :=
  if text = "(" then .openParen
  else if text = ")" then .closeParen
  else
    match Spelling.find? text with
    | some spelling => .connective spelling.connective
    | none => .symbol

/-- Whether this is a connective of two operands. -/
def isBinary : Kind → Bool
  | .connective (.binary _) => true
  | _ => false

end Kind

/-- A piece of text with its kind. An implicit token is not part of the text that is read. -/
structure Token where
  position : Int
  raw : String
  kind : Kind
  implicit : Bool
  deriving DecidableEq, Repr

namespace Token

/-- A token of the text that is read. -/
def typed (position : Int) (raw : String) : Token :=
  ⟨position, raw, Kind.ofText raw, false⟩

/-- A token that nobody typed. -/
def assumed (position : Int) (raw : String) : Token :=
  ⟨position, raw, Kind.ofText raw, true⟩

/-- The position just behind the token. -/
def stop (token : Token) : Int :=
  token.position + token.raw.length

/-! ## The outermost parentheses -/

/-- The number of opening parentheses. -/
def openings (tokens : List Token) : Nat :=
  tokens.countP (·.kind == .openParen)

/-- The number of connectives of two operands. -/
def binaries (tokens : List Token) : Nat :=
  tokens.countP (·.kind.isBinary)

/-- Whether there are fewer opening parentheses than connectives of two operands. -/
def lacksParen (tokens : List Token) : Bool :=
  openings tokens < binaries tokens

/-- The tokens inside an implicit pair of parentheses, for a text of `length` characters. -/
def enclose (length : Int) (tokens : List Token) : List Token :=
  assumed (-1) "(" :: (tokens ++ [assumed length ")"])

/-- The tokens, inside an implicit pair if they lack a parenthesis. -/
def encloseIfLacking (length : Int) (tokens : List Token) : List Token :=
  if lacksParen tokens then enclose length tokens else tokens

end Token

/-! ## The lexemes of a text -/

open Text (isBlank)

/-- A parenthesis or a word, with the number of characters in front of it. -/
structure Lexeme where
  position : Nat
  raw : String
  deriving DecidableEq, Repr

namespace Lexeme

/-- Whether a character is a lexeme on its own. -/
def isParen (c : Char) : Bool :=
  c == '(' || c == ')'

/-- Whether a character belongs to words. -/
def isWordChar (c : Char) : Bool :=
  !isParen c && !isBlank c

/-- The lexemes of the characters that stand from `position` on. -/
def scan (position : Nat) : List Char → List Lexeme
  | [] => []
  | c :: rest =>
    if isBlank c then scan (position + 1) rest
    else if isParen c then ⟨position, String.singleton c⟩ :: scan (position + 1) rest
    else
      let tail := rest.takeWhile isWordChar
      ⟨position, String.ofList (c :: tail)⟩ ::
        scan (position + 1 + tail.length) (rest.dropWhile isWordChar)
termination_by text => text.length
decreasing_by
  · simp
  · simp
  · exact Nat.lt_succ_of_le (rest.dropWhile_suffix isWordChar).length_le

/-- The lexemes of a text. -/
def ofText (text : String) : List Lexeme :=
  scan 0 text.toList

end Lexeme

/-- The tokens of a text. -/
def Token.ofText (text : String) : List Token :=
  (Lexeme.ofText text).map fun lexeme => Token.typed lexeme.position lexeme.raw

end TruthTable
