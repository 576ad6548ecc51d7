import TruthTable.Formula.Parser
import TruthTable.Worksheet.Table

/-!
# The debug log

Reading a text and making a table can be followed in a log. An entry says that the tokens lack a
parenthesis, that a pass over the tokens starts or has to be made again, that a table is made, or
which valuation a row has.

The log of an operation is a list beside the operation and follows the tests that the operation
makes. Nothing is read or shown differently because of it.
-/

namespace TruthTable

/-- The name of a notation in the log. -/
def Format.name : Format → String
  | .latex => "Latex"
  | .plain => "Text"

/-- One entry of the log. -/
inductive LogEntry where
  /-- The tokens lack a parenthesis, and the implicit pair is put around them. -/
  | lacking (openings binaries : Nat)
  /-- A pass over the tokens starts. -/
  | pass (tokens : Nat) (enclosed : Bool)
  /-- A pass left tokens over, and another one is made inside the implicit pair. -/
  | again (position : Int)
  /-- A table is made. -/
  | table (symbols nodes rows : Nat) (format : Format)
  /-- The nodes are evaluated for a row. -/
  | row (number : UInt64) (valuation : Valuation)

/-- The words for an entry. A valuation has no order of its own, so its text is left open. -/
def LogEntry.message (written : Valuation → String) : LogEntry → String
  | .lacking openings binaries =>
    "wrap_outer: " ++ toString openings ++ " opening parentheses for " ++ toString binaries ++
      " binary connectives"
  | .pass tokens enclosed =>
    "parse: " ++ toString tokens ++ " tokens, wrapped = " ++ toString enclosed
  | .again position =>
    "parse: trailing input at " ++ toString position ++ ", retrying with implicit parentheses"
  | .table symbols nodes rows format =>
    "table: " ++ toString symbols ++ " symbols, " ++ toString nodes ++ " nodes, " ++
      toString rows ++ " rows, " ++ format.name
  | .row number valuation =>
    "evaluate_row(row = " ++ toString number ++ ") with " ++ written valuation

namespace Formula

/-- The log of a reading inside an implicit pair of parentheses. -/
def ofTokensEnclosedLog (length : Int) (tokens : List Token) : List LogEntry :=
  [.pass (Token.enclose length tokens).length true]

/-- The log of a reading as the tokens are, and inside an implicit pair if one formula does not take
them all. -/
def ofTokensBareLog (length : Int) (tokens : List Token) : List LogEntry :=
  .pass tokens.length false ::
    match Reader.formula heightLimit (.start tokens) with
    | .ok _ ⟨_, next :: _⟩ => .again next.position :: ofTokensEnclosedLog length tokens
    | _ => []

/-- The log of a reading of all tokens of a text of `length` characters. -/
def ofTokensLog (length : Int) (tokens : List Token) : List LogEntry :=
  if Token.lacksParen tokens then
    .lacking (Token.openings tokens) (Token.binaries tokens) :: ofTokensEnclosedLog length tokens
  else ofTokensBareLog length tokens

/-- The log of a reading of a text. A text without tokens has none. -/
def parseLog (text : String) : List LogEntry :=
  match Token.ofText text with
  | [] => []
  | token :: rest => ofTokensLog text.length (token :: rest)

end Formula

namespace Worksheet

/-- The log of an evaluation for a row. -/
def rowLog (sheet : Worksheet) (order : RowOrder) (row : UInt64) : LogEntry :=
  .row row (sheet.valuation order row)

/-- The log of a table: the table, and its rows in turn. A table that is refused has none. -/
def tableLog (sheet : Worksheet) (options : Options) : List LogEntry :=
  if sheet.symbols.length ≤ options.symbolLimit then
    let count := Nat.pow 2 sheet.symbols.length
    .table sheet.symbols.length sheet.size count options.format ::
      (List.range count).map fun r => sheet.rowLog options.toRowOrder (UInt64.ofNat r)
  else []

end Worksheet

end TruthTable
