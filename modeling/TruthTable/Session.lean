import TruthTable.Worksheet.Table

/-!
# Sessions

A session is work on one worksheet: steps that evaluate it, show it, or put a copy aside and come
back to it. Each step has an answer. The options in force belong to the session, so going back to
a saved worksheet does not change them.
-/

namespace TruthTable

/-- A worksheet, the options in force and the worksheets put aside, the last one first. -/
structure Session where
  sheet : Worksheet
  options : Options
  saved : List Worksheet

namespace Session

/-- What can be done in a session. -/
inductive Step where
  | setOptions (options : Options)
  | evaluate (valuation : Valuation)
  | evaluateRow (row : UInt64)
  | row (row : UInt64)
  | table
  | header
  | print
  | save
  | restore

/-- What a step answers. -/
inductive Answer where
  | done
  | valuation (valuation : Valuation)
  | cells (cells : List String)
  | text (text : String)
  | refused (error : TableError)
  | restored (found : Bool)

/-- The session of a formula, with the default options. -/
def start (formula : Formula) : Session :=
  ⟨.ofFormula formula, {}, []⟩

/-- Does one step. -/
def step (session : Session) : Step → Answer × Session
  | .setOptions options => (.done, { session with options := options })
  | .evaluate valuation =>
    (.done, { session with sheet := session.sheet.evaluate valuation })
  | .evaluateRow row =>
    let order := session.options.toRowOrder
    (.valuation (session.sheet.valuation order row),
      { session with sheet := session.sheet.evaluateRow order row })
  | .row row =>
    let (cells, evaluated) := session.sheet.row session.options row
    (.cells cells, { session with sheet := evaluated })
  | .table =>
    match session.sheet.table session.options with
    | .ok (text, evaluated) => (.text text, { session with sheet := evaluated })
    | .error error => (.refused error, session)
  | .header => (.cells (session.sheet.header session.options.format), session)
  | .print => (.text session.sheet.print, session)
  | .save => (.done, { session with saved := session.sheet :: session.saved })
  | .restore =>
    match session.saved with
    | sheet :: saved => (.restored true, { session with sheet := sheet, saved := saved })
    | [] => (.restored false, session)

/-- Does all steps in turn. Each answer comes with the session after its step. -/
def run (session : Session) : List Step → List (Answer × Session)
  | [] => []
  | step :: rest =>
    let answered := session.step step
    answered :: answered.2.run rest

end Session

end TruthTable
