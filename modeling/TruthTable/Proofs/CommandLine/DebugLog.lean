import TruthTable.CommandLine
import TruthTable.Proofs.Formula.Passes
import TruthTable.Proofs.Valuation.Enumeration

/-!
# What the log tells

The log stands beside the work that it tells of, so what it says of this work is a fact to prove.
The log of a reading has one entry for each pass that is made, in turn
(`Formula.Pass.Run.filter_isPass`), and where it says that a pass left tokens over, a token of the
text starts (`Formula.mem_parseLog`). The log of a table has each assignment to the symbols exactly
once (`Worksheet.tableLog_enumerates`).

The law (`CommandLine.Request.tells`) puts this together for the log of a request: neither part of
the log has entries of the other part's kinds.
-/

namespace TruthTable

namespace LogEntry

/-- Whether the entry is the start of a pass. -/
def isPass : LogEntry → Bool
  | .pass .. => true
  | _ => false

/-- The valuation of an entry for a row. -/
def valuation? : LogEntry → Option Valuation
  | .row _ valuation => some valuation
  | _ => none

end LogEntry

namespace Formula

variable {length : Int} {tokens : List Token} {text : String}

/-! ## Passes -/

namespace Pass

/-- The entry for the start of the pass. -/
def entry (pass : Pass) : LogEntry :=
  .pass pass.tokens.length pass.enclosed

/-- The log of a bare reading whose first pass has the answer. -/
theorem ofTokensBareLog_of_answer {answer : Except ParseError Formula}
    (answered : ending length ⟨tokens, false⟩ = .answer answer) :
    ofTokensBareLog length tokens = [entry ⟨tokens, false⟩] := by
  simp only [ending] at answered
  unfold ofTokensBareLog
  generalize Reader.formula heightLimit (.start tokens) = result at answered ⊢
  rcases result with ⟨formula, taken, _ | ⟨token, rest⟩⟩ | ⟨error, cursor⟩
  · rfl
  · cases answered
  · rfl

/-- The log of a bare reading that makes another pass. -/
theorem ofTokensBareLog_of_again {next : Pass}
    (again : ending length ⟨tokens, false⟩ = .again next) :
    ∃ token ∈ tokens, ofTokensBareLog length tokens =
      [entry ⟨tokens, false⟩, .again token.position, entry next] := by
  obtain ⟨-, rfl, formula, taken, token, rest, read⟩ := again_spec again
  obtain ⟨whole, same, -⟩ := Reader.derives_of_formula read
  refine ⟨token, ?_, ?_⟩
  · have split : tokens = whole ++ token :: rest := same
    rw [split]
    exact List.mem_append_right _ List.mem_cons_self
  · simp only [ofTokensBareLog, read]
    rfl

/-- The log of a reading has an entry for each pass of the run, in turn. -/
theorem Run.filter_isPass {passes : List Pass} {answer : Except ParseError Formula}
    (run : Run length (first length tokens) passes answer) :
    (ofTokensLog length tokens).filter LogEntry.isPass = passes.map entry := by
  rw [first] at run
  rw [ofTokensLog]
  split at run
  case isTrue lacks =>
    obtain ⟨rfl, -⟩ := run.unique (.answered (ending_enclosed length tokens))
    rw [if_pos lacks]
    rfl
  case isFalse enough =>
    rw [if_neg enough]
    cases run with
    | answered ends =>
      rw [ofTokensBareLog_of_answer ends]
      rfl
    | again ends run =>
      obtain ⟨token, -, log⟩ := ofTokensBareLog_of_again ends
      obtain ⟨-, rfl, -⟩ := again_spec ends
      obtain ⟨rfl, -⟩ := run.unique (.answered (ending_enclosed length tokens))
      rw [log]
      rfl

end Pass

/-! ## Texts -/

theorem parseLog_of_ofText_ne_nil (nonempty : Token.ofText text ≠ []) :
    parseLog text = ofTokensLog text.length (Token.ofText text) := by
  unfold parseLog
  cases split : Token.ofText text with
  | nil => exact absurd split nonempty
  | cons token rest => rfl

theorem ofTokensLog_ne_nil (length : Int) (tokens : List Token) :
    ofTokensLog length tokens ≠ [] := by
  unfold ofTokensLog
  split
  · exact List.cons_ne_nil _ _
  · exact List.cons_ne_nil _ _

/-- A reading leaves no entry exactly if there is nothing but blanks to read. -/
theorem parseLog_eq_nil_iff : parseLog text = [] ↔ text.toList.all Text.isBlank = true := by
  rw [← Token.ofText_eq_nil_iff]
  constructor
  · intro none
    by_contra nonempty
    rw [parseLog_of_ofText_ne_nil nonempty] at none
    exact ofTokensLog_ne_nil _ _ none
  · intro empty
    rw [parseLog, empty]

/-- What a reading logs: that a parenthesis is lacking, the start of a pass, or that a pass left
tokens over, where a token of the text starts. -/
theorem mem_parseLog {entry : LogEntry} (mem : entry ∈ parseLog text) :
    (∃ openings binaries, entry = .lacking openings binaries) ∨
      (∃ pass : Pass, entry = pass.entry) ∨
      ∃ token ∈ Token.ofText text, entry = .again token.position := by
  have nonempty : Token.ofText text ≠ [] := by
    intro empty
    rw [parseLog, empty] at mem
    cases mem
  rw [parseLog_of_ofText_ne_nil nonempty, ofTokensLog] at mem
  split at mem
  case isTrue =>
    obtain rfl | inPair := List.mem_cons.mp mem
    · exact .inl ⟨_, _, rfl⟩
    · exact .inr (.inl ⟨⟨_, true⟩, List.mem_singleton.mp inPair⟩)
  case isFalse =>
    cases ends : Pass.ending text.length ⟨Token.ofText text, false⟩ with
    | answer answer =>
      rw [Pass.ofTokensBareLog_of_answer ends] at mem
      exact .inr (.inl ⟨_, List.mem_singleton.mp mem⟩)
    | again next =>
      obtain ⟨left, among, log⟩ := Pass.ofTokensBareLog_of_again ends
      rw [log, List.mem_cons, List.mem_cons, List.mem_singleton] at mem
      obtain rfl | rfl | rfl := mem
      · exact .inr (.inl ⟨_, rfl⟩)
      · exact .inr (.inr ⟨left, among, rfl⟩)
      · exact .inr (.inl ⟨_, rfl⟩)

end Formula

/-! ## Tables -/

namespace Worksheet

/-- What a table logs: itself, and its rows. -/
theorem mem_tableLog {sheet : Worksheet} {options : Options} {entry : LogEntry}
    (mem : entry ∈ sheet.tableLog options) :
    (∃ symbols nodes rows format, entry = .table symbols nodes rows format) ∨
      ∃ row, entry = sheet.rowLog options.toRowOrder row := by
  unfold tableLog at mem
  split at mem
  case isTrue =>
    obtain rfl | ofRow := List.mem_cons.mp mem
    · exact .inl ⟨_, _, _, _, rfl⟩
    · obtain ⟨row, -, rfl⟩ := List.mem_map.mp ofRow
      exact .inr ⟨_, rfl⟩
  case isFalse => cases mem

/-- The valuations in the log of a table are those of its rows. -/
theorem filterMap_tableLog {sheet : Worksheet} {options : Options}
    (few : sheet.symbols.length ≤ options.symbolLimit) :
    (sheet.tableLog options).filterMap LogEntry.valuation? =
      Valuation.ofRows options.toRowOrder sheet.symbols (2 ^ sheet.symbols.length) := by
  rw [tableLog, if_pos few, List.filterMap_cons, List.filterMap_map, Valuation.ofRows,
    ← List.filterMap_eq_map]
  rfl

/-- The log of a table that is made has all assignments to the symbols, and each of them once. -/
theorem tableLog_enumerates {formula : Formula} {options : Options}
    (few : formula.symbols.length ≤ options.symbolLimit) :
    let valuations := ((ofFormula formula).tableLog options).filterMap LogEntry.valuation?
    valuations.Nodup ∧ ∀ valuation, valuation ∈ valuations ↔ valuation.Assigns formula.symbols := by
  intro valuations
  have rows : valuations = _ := filterMap_tableLog few
  have fewer : formula.symbols.length ≤ 63 := few.trans (Nat.min_le_right _ _)
  rw [rows]
  exact ⟨Valuation.nodup_ofRows _ formula.nodup_symbols fewer,
    fun _ => Valuation.mem_ofRows formula.nodup_symbols fewer⟩

end Worksheet

/-! ## Requests -/

namespace CommandLine.Request

open Formula (Pass parse)

variable {request : Request}

/-- Whether the log of a request tells of what is done for it. -/
structure Tells (request : Request) : Prop where
  /-- There is no entry exactly if nobody asks for the log or there is nothing to read. -/
  silent : request.log = [] ↔
    request.verbose = false ∨ request.text.toList.all Text.isBlank = true
  /-- Each pass over the tokens has its entry, in turn. -/
  passes : request.verbose = true → Token.ofText request.text ≠ [] → ∀ passes answer,
    Pass.Run request.text.length (.first request.text.length (Token.ofText request.text)) passes
      answer →
    request.log.filter LogEntry.isPass = passes.map Pass.entry
  /-- Where a pass left tokens over, a token of the text starts. -/
  again : ∀ position, .again position ∈ request.log →
    ∃ token ∈ Token.ofText request.text, token.position = position
  /-- A table that is made has each assignment to its symbols once, and no other one. -/
  rows : request.verbose = true → ∀ formula, parse request.text = .ok (some formula) →
    formula.symbols.length ≤ request.options.symbolLimit →
    (request.log.filterMap LogEntry.valuation?).Nodup ∧
      ∀ valuation, valuation ∈ request.log.filterMap LogEntry.valuation? ↔
        valuation.Assigns formula.symbols

theorem log_of_verbose (verbose : request.verbose = true) :
    request.log = Formula.parseLog request.text ++ request.tableLog :=
  if_pos verbose

theorem log_of_quiet (quiet : request.verbose = false) : request.log = [] :=
  if_neg (by simp [quiet])

/-- Only a formula that is read has a table to log. -/
theorem mem_tableLog {entry : LogEntry} (mem : entry ∈ request.tableLog) :
    ∃ formula, parse request.text = .ok (some formula) ∧
      entry ∈ (Worksheet.ofFormula formula).tableLog request.options := by
  unfold tableLog at mem
  split at mem
  case h_1 formula read => exact ⟨formula, read, mem⟩
  case h_2 => cases mem

/-- A blank text has no table to log. -/
theorem tableLog_of_blank (blank : request.text.toList.all Text.isBlank = true) :
    request.tableLog = [] := by
  rw [tableLog, Formula.parse_eq_none_iff.mpr blank]

theorem log_eq_nil_iff :
    request.log = [] ↔
      request.verbose = false ∨ request.text.toList.all Text.isBlank = true := by
  cases asked : request.verbose with
  | false => simp [log_of_quiet asked]
  | true =>
    rw [log_of_verbose asked, List.append_eq_nil_iff, Formula.parseLog_eq_nil_iff]
    constructor
    · rintro ⟨blank, -⟩
      exact .inr blank
    · rintro (quiet | blank)
      · cases quiet
      · exact ⟨blank, tableLog_of_blank blank⟩

/-- The entries for passes are those of the reading. -/
theorem filter_isPass_log (verbose : request.verbose = true) :
    request.log.filter LogEntry.isPass =
      (Formula.parseLog request.text).filter LogEntry.isPass := by
  have table : request.tableLog.filter LogEntry.isPass = [] := by
    rw [List.filter_eq_nil_iff]
    intro entry mem
    obtain ⟨formula, -, ofTable⟩ := mem_tableLog mem
    obtain ⟨_, _, _, _, rfl⟩ | ⟨_, rfl⟩ := Worksheet.mem_tableLog ofTable
    · exact Bool.false_ne_true
    · exact Bool.false_ne_true
  rw [log_of_verbose verbose, List.filter_append, table, List.append_nil]

/-- The entries for rows are those of the table. -/
theorem filterMap_valuation?_log (verbose : request.verbose = true) :
    request.log.filterMap LogEntry.valuation? =
      request.tableLog.filterMap LogEntry.valuation? := by
  have reading : (Formula.parseLog request.text).filterMap LogEntry.valuation? = [] := by
    rw [List.filterMap_eq_nil_iff]
    intro entry mem
    obtain ⟨_, _, rfl⟩ | ⟨_, rfl⟩ | ⟨_, -, rfl⟩ := Formula.mem_parseLog mem
    · rfl
    · rfl
    · rfl
  rw [log_of_verbose verbose, List.filterMap_append, reading, List.nil_append]

/-- The place that an entry gives is that of a token. -/
theorem exists_token_of_again {position : Int} (mem : .again position ∈ request.log) :
    ∃ token ∈ Token.ofText request.text, token.position = position := by
  have verbose : request.verbose = true := by
    by_contra quiet
    rw [log_of_quiet (Bool.eq_false_of_not_eq_true quiet)] at mem
    cases mem
  rw [log_of_verbose verbose, List.mem_append] at mem
  obtain ofReading | ofTable := mem
  · obtain ⟨_, _, same⟩ | ⟨_, same⟩ | ⟨token, among, same⟩ := Formula.mem_parseLog ofReading
    · cases same
    · cases same
    · exact ⟨token, among, (LogEntry.again.inj same).symm⟩
  · obtain ⟨formula, -, ofFormula⟩ := mem_tableLog ofTable
    obtain ⟨_, _, _, _, same⟩ | ⟨_, same⟩ := Worksheet.mem_tableLog ofFormula
    · cases same
    · cases same

/-- **The log of a request tells of what is done for it.** -/
theorem tells (request : Request) : request.Tells where
  silent := log_eq_nil_iff
  passes verbose nonempty passes answer run := by
    rw [filter_isPass_log verbose, Formula.parseLog_of_ofText_ne_nil nonempty, run.filter_isPass]
  again _ := exists_token_of_again
  rows verbose formula read few := by
    have table : request.tableLog = (Worksheet.ofFormula formula).tableLog request.options := by
      rw [tableLog, read]
    rw [filterMap_valuation?_log verbose, table]
    exact Worksheet.tableLog_enumerates few

end CommandLine.Request

end TruthTable
