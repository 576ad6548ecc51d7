import TruthTable.DebugLog

/-!
# The command line

The arguments are a formula and flags, and the answer is the formula's table. Where the formula
cannot be read, the answer points at the place. All output of a failure goes to the error stream,
and its exit code is not zero. `--` ends the flags, so that a formula may start with a hyphen.

On demand the debug log goes to the error stream too, in front of anything else. The texts that the
program leaves to others are those of a `Console`: the lines of the log, the report of an error that
ends the program, and the words on arguments that cannot be read.
-/

namespace TruthTable.CommandLine

/-- A formula to read, the options of its table, and whether the debug log is written. -/
structure Request where
  text : String
  options : Options
  verbose : Bool := false
  deriving DecidableEq, Repr

/-- What a run writes to both streams, and its exit code. -/
structure Outcome where
  code : UInt32
  output : String
  errors : String
  deriving DecidableEq, Repr

/-! ## Arguments -/

/-- What is wrong with the arguments. -/
inductive UsageError where
  | unknownFlag (name : String)
  | missingValue (name : String)
  | badValue (name value : String)
  | missingFormula
  | extraArgument (argument : String)
  deriving DecidableEq, Repr

/-- The words for an error. -/
def UsageError.message : UsageError → String
  | .unknownFlag name => "unknown flag " ++ name
  | .missingValue name => "a value is required for " ++ name
  | .badValue name value => "invalid value '" ++ value ++ "' for " ++ name
  | .missingFormula => "a formula is required"
  | .extraArgument argument => "unexpected argument '" ++ argument ++ "'"

/-- The options where no flag says otherwise: a table in plain text. -/
def defaultOptions : Options :=
  { format := .plain }

/-- The number that a text of decimal digits stands for. -/
def decimal? (text : String) : Option Nat :=
  if text.toList.all Char.isDigit then text.toNat? else none

/-- The flags that take a value. -/
def valueFlags : List String :=
  ["--true-symbol", "--false-symbol", "--format", "--max-symbols"]

/-- The options after a flag with its value. -/
def setValue (options : Options) (name value : String) : Except UsageError Options :=
  match name with
  | "--true-symbol" => .ok { options with trueText := value }
  | "--false-symbol" => .ok { options with falseText := value }
  | "--format" =>
    match value with
    | "latex" => .ok { options with format := .latex }
    | "text" => .ok { options with format := .plain }
    | _ => .error (.badValue name value)
  | "--max-symbols" =>
    match decimal? value with
    | some count => .ok { options with maxSymbols := count }
    | none => .error (.badValue name value)
  | _ => .error (.unknownFlag name)

/-- The name of a flag and, behind an equals sign, its value. -/
def splitFlag (argument : String) : String × Option String :=
  let name := argument.toList.takeWhile (· != '=')
  match argument.toList.drop name.length with
  | [] => (argument, none)
  | _ :: value => (String.ofList name, some (String.ofList value))

/-- What the arguments read so far say: the options, whether the debug log is written, the formula,
a flag whose value comes next, and whether flags may still come. -/
structure Progress where
  options : Options
  verbose : Bool := false
  formula : Option String := none
  pending : Option String := none
  flagsEnded : Bool := false
  deriving DecidableEq, Repr

/-- Takes a flag without a value. -/
def Progress.setSwitch? (progress : Progress) : String → Option Progress
  | "--reverse-columns" => some { progress with options.reverseColumns := true }
  | "--reverse-rows" => some { progress with options.reverseRows := true }
  | "--verbose" | "-v" => some { progress with verbose := true }
  | _ => none

/-- Takes one argument. -/
def Progress.take (progress : Progress) (argument : String) : Except UsageError Progress := do
  match progress.pending with
  | some name =>
    return { progress with options := ← setValue progress.options name argument, pending := none }
  | none =>
    if progress.flagsEnded || argument.toList.head? != some '-' then
      match progress.formula with
      | none => return { progress with formula := some argument }
      | some _ => throw (.extraArgument argument)
    else if argument = "--" then
      return { progress with flagsEnded := true }
    else
      match splitFlag argument with
      | (name, some value) =>
        return { progress with options := ← setValue progress.options name value }
      | (name, none) =>
        match progress.setSwitch? name with
        | some progress => return progress
        | none =>
          if valueFlags.contains name then return { progress with pending := some name }
          else throw (.unknownFlag name)

/-- What all arguments ask for. -/
def Progress.request (progress : Progress) : Except UsageError Request :=
  match progress.pending, progress.formula with
  | some name, _ => .error (.missingValue name)
  | none, none => .error .missingFormula
  | none, some text => .ok ⟨text, progress.options, progress.verbose⟩

/-- Reads the arguments. -/
def readArguments (arguments : List String) : Except UsageError Request := do
  (← arguments.foldlM Progress.take { options := defaultOptions }).request

/-! ## Texts of others -/

/-- The texts that are not the program's own. Neither two lines of the log nor two valuations need
be written alike, so both have their place in the log. -/
structure Console where
  /-- The line of the log for a message. -/
  logLine : Nat → String → String
  /-- A valuation in a message of the log. -/
  valuation : Nat → Valuation → String
  /-- The report of an error that ends the program. -/
  report : TableError → String
  /-- The words on arguments that cannot be read. -/
  usage : UsageError → String

namespace Console

/-- The text of a log. -/
def log (console : Console) (entries : List LogEntry) : String :=
  String.join
    (entries.mapIdx fun place entry =>
      console.logLine place (entry.message (console.valuation place)))

/-- A console that adds as little as it can: no clock, and valuations in the order of the names. -/
def plain : Console where
  logLine _ message := Text.ofLines ["[DEBUG] " ++ message]
  valuation _ valuation :=
    let values := valuation.toList.map fun (name, value) =>
      "\"" ++ name ++ "\": " ++ toString value
    "\x7b" ++ ", ".intercalate values ++ "\x7d"
  report error := Text.ofLines ["Error: " ++ error.message]
  usage error := Text.ofLines ["error: " ++ error.message]

end Console

/-! ## Outcomes -/

/-- The text, a caret below the place of the error, and what is wrong there. -/
def pointAt (text : String) (error : ParseError) : String :=
  Text.ofLines
    [text, Text.repeated error.position.toNat ' ' ++ "^", "error: " ++ error.cause.description]

/-- The log of the table of a request. A text that is no formula has no table. -/
def Request.tableLog (request : Request) : List LogEntry :=
  match Formula.parse request.text with
  | .ok (some formula) => (Worksheet.ofFormula formula).tableLog request.options
  | _ => []

/-- The log of a request, if it is demanded: that of the reading, then that of the table. -/
def Request.log (request : Request) : List LogEntry :=
  if request.verbose then Formula.parseLog request.text ++ request.tableLog else []

/-- Reads the formula and makes its table. A blank text has no table and is no failure. -/
def Request.run (console : Console) (request : Request) : Outcome :=
  let logged := console.log request.log
  match Formula.parse request.text with
  | .error error => ⟨1, "", logged ++ pointAt request.text error⟩
  | .ok none => ⟨0, "", logged⟩
  | .ok (some formula) =>
    match (Worksheet.ofFormula formula).table request.options with
    | .ok (text, _) => ⟨0, text, logged⟩
    | .error error => ⟨1, "", logged ++ console.report error⟩

/-- Reads the arguments and does what they ask for. -/
def run (console : Console) (arguments : List String) : Outcome :=
  match readArguments arguments with
  | .ok request => request.run console
  | .error error => ⟨2, "", console.usage error⟩

end TruthTable.CommandLine
