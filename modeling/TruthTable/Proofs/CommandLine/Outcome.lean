import Mathlib.Data.Finset.Card
import TruthTable.CommandLine
import TruthTable.Proofs.CommandLine.DebugLog
import TruthTable.Proofs.Formula.ErrorAnchor
import TruthTable.Proofs.Worksheet.Freshness

/-!
# What a run writes

A run ends in one of four ways (`CommandLine.Request.Ends`): the text is blank, the table is shown,
the table is refused, or the text cannot be read. Each request ends in the one way that its text and
its options leave (`Request.ends_run`), and the law (`Request.run_all_or_nothing`) reads off the
exit code and both streams. It holds for every console: for every clock, every order of the names in
a logged valuation and every report of a refused table.

The debug log stands on the error stream in front of anything else. So a run that succeeds is silent
there only if the log is not demanded or has no entry (`Request.errors_eq_empty_iff`).

The caret is the one place where a number is cut off: a position in front of the text would be drawn
at its first column. Errors have the position of a token that was typed or the end of the last one
(`Formula.position_start_or_stop`), so this never happens, and the caret stands below a character of
the text or just behind it (`Formula.exists_column`).
-/

namespace TruthTable

open Text (isBlank)

/-- The symbols of a formula are its names without repetitions. -/
theorem Formula.card_names (formula : Formula) :
    formula.names.toFinset.card = formula.symbols.length := by
  have same : formula.names.toFinset = formula.symbols.toFinset := by
    ext name
    rw [List.mem_toFinset, List.mem_toFinset, mem_symbols]
  rw [same, List.toFinset_card_of_nodup formula.nodup_symbols]

/-- The position of an error is a column of the text, where a token starts or the last one ends. -/
theorem Formula.exists_column {text : String} {error : ParseError}
    (failed : parse text = .error error) :
    ∃ column : Nat, error.position = column ∧ column ≤ text.length ∧
      ((∃ token ∈ Token.ofText text, token.position = column) ∨
        ∃ last, (Token.ofText text).getLast? = some last ∧ last.stop = column) := by
  have nonempty : Token.ofText text ≠ [] := by
    intro empty
    rw [parse_of_ofText_eq_nil empty] at failed
    cases failed
  rw [parse_of_ofText_ne_nil nonempty, map_some_eq_error_iff] at failed
  have typed : ∀ token ∈ Token.ofText text, token.implicit = false :=
    fun _ => Token.implicit_of_mem_ofText
  have ends := List.getLast?_eq_some_getLast nonempty
  obtain ⟨token, mem, start⟩ | stop := position_start_or_stop typed failed
  · obtain ⟨nonneg, le, inside⟩ := Token.bounds_ofText mem
    refine ⟨token.position.toNat, ?_, ?_, .inl ⟨token, mem, ?_⟩⟩ <;> omega
  · have lastStop := Token.lastStop_of_typed typed ends
    obtain ⟨nonneg, le, inside⟩ := Token.bounds_ofText (List.mem_of_getLast? ends)
    rw [lastStop] at stop
    refine ⟨error.position.toNat, ?_, ?_, .inr ⟨_, ends, ?_⟩⟩ <;> omega

namespace Worksheet

variable {sheet : Worksheet} {options : Options}

/-- A table that is made has no more symbols than the limit. -/
theorem symbols_le_of_table {shown : String × Worksheet}
    (result : sheet.table options = .ok shown) : sheet.symbols.length ≤ options.symbolLimit := by
  by_contra many
  rw [table_of_lt (Nat.not_le.mp many)] at result
  cases result

/-- A table that is refused has more symbols than the limit. -/
theorem lt_symbols_of_table {refusal : TableError} (result : sheet.table options = .error refusal) :
    options.symbolLimit < sheet.symbols.length := by
  by_contra few
  rw [table, if_pos (Nat.not_lt.mp few)] at result
  cases result

end Worksheet

namespace CommandLine

namespace Console

/-- Whether a console writes something wherever it is asked to. -/
structure Speaks (console : Console) : Prop where
  lines : ∀ place message, console.logLine place message ≠ ""
  reports : ∀ refusal, console.report refusal ≠ ""

theorem plain_speaks : plain.Speaks where
  lines place message := by simp [plain, Text.ofLines]
  reports refusal := by simp [plain, Text.ofLines]

/-- Where every line has a text, the text of a log is empty only if the log is. -/
theorem Speaks.log_eq_empty_iff {console : Console} (speaks : console.Speaks)
    {entries : List LogEntry} : console.log entries = "" ↔ entries = [] := by
  cases entries with
  | nil => simp [log]
  | cons entry rest => simp [log, speaks.lines]

end Console

theorem pointAt_ne_empty (text : String) (error : ParseError) : pointAt text error ≠ "" := by
  simp [pointAt, Text.ofLines]

namespace Request

variable {console : Console} {request : Request}

/-- The ways a request can end. -/
inductive Ends (console : Console) (request : Request) : Outcome → Prop
  | blank : request.text.toList.all isBlank = true →
      Ends console request ⟨0, "", console.log request.log⟩
  | shown {formula : Formula} {table : String} {sheet : Worksheet} :
      Formula.parse request.text = .ok (some formula) →
      formula.symbols.length ≤ request.options.symbolLimit →
      (Worksheet.ofFormula formula).table request.options = .ok (table, sheet) →
      Ends console request ⟨0, table, console.log request.log⟩
  | refused {formula : Formula} :
      Formula.parse request.text = .ok (some formula) →
      request.options.symbolLimit < formula.symbols.length →
      Ends console request ⟨1, "", console.log request.log ++
        console.report (.tooManySymbols formula.symbols.length request.options.symbolLimit)⟩
  | unread {error : ParseError} :
      Formula.parse request.text = .error error →
      Ends console request ⟨1, "", console.log request.log ++ pointAt request.text error⟩

/-- Every request ends in one of these ways. -/
theorem ends_run (console : Console) (request : Request) :
    Ends console request (request.run console) := by
  unfold run
  cases read : Formula.parse request.text with
  | error error => exact .unread read
  | ok found =>
    cases found with
    | none => exact .blank (Formula.parse_eq_none_iff.mp read)
    | some formula =>
      dsimp only
      cases result : (Worksheet.ofFormula formula).table request.options with
      | ok shown => exact .shown read (Worksheet.symbols_le_of_table result) result
      | error refusal =>
        have many := Worksheet.lt_symbols_of_table result
        rw [Worksheet.table_of_lt many] at result
        cases result
        exact .refused read many

/-- Where the console speaks, a run writes nothing to the error stream exactly if it succeeds and
the log is not demanded or has nothing to tell. -/
theorem errors_eq_empty_iff (speaks : console.Speaks) :
    (request.run console).errors = "" ↔
      (request.run console).code = 0 ∧
        (request.verbose = false ∨ request.text.toList.all isBlank = true) := by
  rw [← log_eq_nil_iff, ← speaks.log_eq_empty_iff]
  have ends := ends_run console request
  generalize request.run console = outcome at ends ⊢
  cases ends with
  | blank | shown => simp
  | refused => simp [speaks.reports]
  | unread => simp [pointAt_ne_empty]

/-- The text of an error: the text that was read, a caret below a column, and the description. -/
theorem pointAt_eq {text : String} {error : ParseError} {column : Nat}
    (place : error.position = column) :
    pointAt text error =
      text ++ "\n" ++ Text.repeated column ' ' ++ "^" ++ "\n" ++ "error: " ++
        error.cause.description ++ "\n" := by
  rw [pointAt, place, Int.toNat_natCast, Text.ofLines]
  simp only [List.map_cons, List.map_nil, String.join_cons, String.join_nil, String.append_assoc,
    String.append_empty]

/-- **All or nothing.** A run succeeds exactly if the text is blank, or is read as a formula with no
more symbols than the options and the row numbers allow. Then it writes nothing but the log to the
error stream, and nothing at all or the complete table to the other one. Any other run has the exit
code 1 and writes nothing to the output stream. Where the text cannot be read, the error stream has,
behind the log, the text, a caret below the place of the error and the description. That place is
never moved into the text: it is where a token of the text starts, or where its last one ends. The
log tells of what is done, and it is empty unless it is demanded. -/
theorem run_all_or_nothing (console : Console) (request : Request) :
    let outcome := request.run console
    let logged := console.log request.log
    (outcome.code = 0 ↔
      request.text.toList.all isBlank = true ∨
        ∃ formula, Formula.parse request.text = .ok (some formula) ∧
          formula.names.toFinset.card ≤ min request.options.maxSymbols 63) ∧
      (outcome.code = 0 → outcome.errors = logged ∧
        (request.text.toList.all isBlank = true → outcome.output = "") ∧
        ∀ formula, Formula.parse request.text = .ok (some formula) →
          ∃ sheet, (Worksheet.ofFormula formula).table request.options =
            .ok (outcome.output, sheet)) ∧
      (outcome.code ≠ 0 → outcome.code = 1 ∧ outcome.output = "") ∧
      (∀ error, Formula.parse request.text = .error error →
        ∃ column : Nat, error.position = column ∧ column ≤ request.text.length ∧
          ((∃ token ∈ Token.ofText request.text, token.position = column) ∨
            ∃ last, (Token.ofText request.text).getLast? = some last ∧ last.stop = column) ∧
          outcome.errors = logged ++
            (request.text ++ "\n" ++ Text.repeated column ' ' ++ "^" ++ "\n" ++ "error: " ++
              error.cause.description ++ "\n")) ∧
      (request.verbose = false → logged = "") ∧ request.Tells := by
  intro outcome logged
  have limit : request.options.symbolLimit = min request.options.maxSymbols 63 := rfl
  have ends : Ends console request outcome := ends_run console request
  have log : (request.verbose = false → logged = "") ∧ request.Tells :=
    ⟨fun quiet => congrArg console.log (log_of_quiet quiet), request.tells⟩
  generalize outcome = outcome at ends ⊢
  simp only [← Formula.parse_eq_none_iff, ← limit, Formula.card_names]
  cases ends with
  | blank blank =>
    have read := Formula.parse_eq_none_iff.mpr blank
    simpa [read, logged] using log
  | @shown formula table sheet read few made =>
    have only : ∀ other, Formula.parse request.text = .ok (some other) → other = formula := by
      intro other read'
      rw [read] at read'
      exact (Option.some.inj (Except.ok.inj read')).symm
    refine ⟨iff_of_true rfl (.inr ⟨formula, read, few⟩), fun _ => ⟨rfl, ?_, ?_⟩, ?_, ?_, log⟩
    · intro blank
      rw [read] at blank
      cases blank
    · intro other read'
      rw [only other read']
      exact ⟨sheet, made⟩
    · intro failed
      exact absurd rfl failed
    · intro error failed
      rw [read] at failed
      cases failed
  | refused read many => simpa [read, many, logged] using log
  | @unread error read =>
    refine ⟨?_, fun succeeded => ?_, fun _ => ⟨rfl, rfl⟩, fun other read' => ?_, log⟩
    · simp [read]
    · cases succeeded
    · obtain rfl : error = other := Except.error.inj (read.symm.trans read')
      obtain ⟨column, place, inside, token⟩ := Formula.exists_column read
      exact ⟨column, place, inside, token, congrArg (logged ++ ·) (pointAt_eq place)⟩

/-- Where the log is demanded, a run that succeeds writes to the error stream, whatever the lines of
the log look like, and what a run says of a text that cannot be read is more than the three lines. -/
theorem run_verbose_not_silent :
    let symbol : Request := { text := "A", options := defaultOptions, verbose := true }
    let cut : Request := { text := "A &", options := defaultOptions, verbose := true }
    (readArguments ["--verbose", "A"] = .ok symbol ∧
      symbol.run .plain =
        ⟨0, "A | A\n--+--\n0 | 0\n1 | 1\n",
          Text.ofLines
            ["[DEBUG] parse: 1 tokens, wrapped = false",
              "[DEBUG] table: 1 symbols, 1 nodes, 2 rows, Text",
              "[DEBUG] evaluate_row(row = 0) with \x7b\"A\": false\x7d",
              "[DEBUG] evaluate_row(row = 1) with \x7b\"A\": true\x7d"]⟩ ∧
      Console.plain.Speaks ∧
      ∀ console : Console, console.Speaks → (symbol.run console).errors ≠ "") ∧
    readArguments ["--verbose", "A &"] = .ok cut ∧
      ∃ error, Formula.parse cut.text = .error error ∧ error.position = 3 ∧
        (cut.run .plain).errors ≠
          cut.text ++ "\n" ++ Text.repeated 3 ' ' ++ "^" ++ "\n" ++ "error: " ++
            error.cause.description ++ "\n" := by
  intro symbol cut
  have read : Formula.parse cut.text = .error ⟨3, .missingFormula⟩ := by decide +kernel
  refine ⟨⟨by decide +kernel, by decide +kernel, Console.plain_speaks, ?_⟩,
    by decide +kernel, _, read, rfl, by decide +kernel⟩
  intro console speaks silent
  obtain ⟨-, quiet | blank⟩ := (errors_eq_empty_iff speaks).mp silent
  · cases quiet
  · exact absurd blank (by decide)

/-- A bracket of the text takes the implicit closing one, and the caret stands behind the last token
and in front of the blanks at the end. -/
example : Request.run .plain { text := "A & (B & C  ", options := defaultOptions } =
    ⟨1, "", "A & (B & C  \n          ^\nerror: missing closing parenthesis\n"⟩ := by
  decide +kernel

end Request

end CommandLine

end TruthTable
