import Mathlib.Data.List.GetD
import TruthTable.Proofs.Worksheet.Freshness
import TruthTable.Session

/-!
# The history of a session

A session works on one worksheet in place, and can put copies of it aside and go back to any of
them. None of this can be seen in the answers: a worksheet is determined by its formula and the last
evaluation on its own history (`Session.Trail.sheet`), and what it answers does not even depend on
that evaluation (`Session.step_fst_sheet`).

`Session.Trail` is the session without worksheets: it keeps the evaluations and nothing else. One
move of the session is one move of the trail (`Session.move_session`), so a whole run is followed by
its trail (`Session.after_session`).
-/

namespace TruthTable

/-- What writes the truth values of a worksheet. -/
inductive Evaluation where
  | valuation (valuation : Valuation)
  | row (order : RowOrder) (row : UInt64)

/-- The worksheet after an evaluation of either kind. -/
def Worksheet.perform (sheet : Worksheet) : Evaluation → Worksheet
  | .valuation valuation => sheet.evaluate valuation
  | .row order row => sheet.evaluateRow order row

namespace Session

/-! ## Moves -/

/-- What can be done with the worksheets of a session: a step, or going back to any worksheet that
was put aside. It stays put aside. -/
inductive Move where
  | step (step : Step)
  | resume (index : Nat)

/-- The session after a move. -/
def move (session : Session) : Move → Session
  | .step step => (session.step step).2
  | .resume index => { session with sheet := session.saved.getD index session.sheet }

/-- The session after some moves. -/
def after (session : Session) (moves : List Move) : Session :=
  moves.foldl move session

/-! ## Trails -/

/-- The evaluation that a step does under some options, over `count` symbols. A table evaluates its
last row in the end, unless it is refused. -/
def Step.evaluation? (options : Options) (count : Nat) : Step → Option Evaluation
  | .evaluate valuation => some (.valuation valuation)
  | .evaluateRow number | .row number => some (.row options.toRowOrder number)
  | .table =>
    if count ≤ options.symbolLimit then
      some (.row options.toRowOrder (Worksheet.lastRow count))
    else none
  | .setOptions _ | .header | .print | .save | .restore => none

/-- The options in force, the evaluations on the history of the worksheet, the last one first, and
those on the histories of the worksheets put aside. -/
structure Trail where
  options : Options := {}
  history : List Evaluation := []
  saved : List (List Evaluation) := []

namespace Trail

/-- The trail after a step of a session over `count` symbols. -/
def step (count : Nat) (trail : Trail) : Step → Trail
  | .setOptions options => { trail with options := options }
  | .save => { trail with saved := trail.history :: trail.saved }
  | .restore =>
    match trail.saved with
    | history :: saved => { trail with history := history, saved := saved }
    | [] => trail
  | step =>
    { trail with history := (step.evaluation? trail.options count).toList ++ trail.history }

/-- The trail after a move. -/
def move (count : Nat) (trail : Trail) : Move → Trail
  | .step step => trail.step count step
  | .resume index => { trail with history := trail.saved.getD index trail.history }

/-- The trail after some moves. -/
def after (count : Nat) (trail : Trail) (moves : List Move) : Trail :=
  moves.foldl (move count) trail

/-- A new worksheet of a formula after the last evaluation of a history. -/
def sheet (formula : Formula) : List Evaluation → Worksheet
  | [] => .ofFormula formula
  | last :: _ => (Worksheet.ofFormula formula).perform last

/-- The session whose worksheets have done only the last evaluations of their histories. -/
def session (formula : Formula) (trail : Trail) : Session :=
  ⟨sheet formula trail.history, trail.options, trail.saved.map (sheet formula)⟩

end Trail

/-! ## One move -/

variable {formula : Formula}

theorem exists_ofTruth_sheet (formula : Formula) (history : List Evaluation) :
    ∃ truth, Trail.sheet formula history = .ofTruth formula truth := by
  cases history with
  | nil => exact ⟨_, rfl⟩
  | cons last earlier => cases last <;> exact ⟨_, rfl⟩

/-- An evaluation leaves no trace of the history in front of it. -/
theorem perform_sheet (formula : Formula) (evaluation : Evaluation) (history : List Evaluation) :
    (Trail.sheet formula history).perform evaluation =
      Trail.sheet formula (evaluation :: history) := by
  obtain ⟨truth, same⟩ := exists_ofTruth_sheet formula history
  rw [same]
  cases evaluation with
  | valuation valuation => exact Worksheet.evaluate_ofTruth valuation
  | row order row => exact Worksheet.evaluateRow_ofTruth order row

/-- A table that is not refused is that of a new worksheet, and leaves its last row behind. -/
theorem step_table_of_le (session : Session) (history : List Evaluation)
    (same : session.sheet = Trail.sheet formula history)
    (few : formula.symbols.length ≤ session.options.symbolLimit) :
    session.step .table =
      (.text ((Worksheet.freshGrid formula session.options).render session.options),
        { session with
          sheet := (Worksheet.ofFormula formula).perform
            (.row session.options.toRowOrder (Worksheet.lastRow formula.symbols.length)) }) := by
  obtain ⟨truth, isTruth⟩ := exists_ofTruth_sheet formula history
  have table := Worksheet.table_of_le truth few
  rw [← isTruth, ← same] at table
  rw [step, table]
  rfl

/-- A refused table leaves the whole session as it is. -/
theorem step_table_of_lt (session : Session)
    (many : session.options.symbolLimit < session.sheet.symbols.length) :
    session.step .table =
      (.refused (.tooManySymbols session.sheet.symbols.length session.options.symbolLimit),
        session) := by
  rw [step, Worksheet.table_of_lt many]

/-- A step answers what it would answer with a new worksheet. -/
theorem step_fst_sheet (formula : Formula) (history : List Evaluation) (options : Options)
    (saved : List Worksheet) (step : Step) :
    ((Session.mk (Trail.sheet formula history) options saved).step step).1 =
      ((Session.mk (.ofFormula formula) options saved).step step).1 := by
  obtain ⟨truth, same⟩ := exists_ofTruth_sheet formula history
  cases step with
  | row number =>
    rw [same]
    show Answer.cells ((Worksheet.ofTruth formula truth).row options number).1 = _
    rw [Worksheet.row_ofTruth]
    rfl
  | table =>
    by_cases few : formula.symbols.length ≤ options.symbolLimit
    · rw [step_table_of_le _ history rfl few, step_table_of_le _ [] rfl few]
    · have many := Nat.lt_of_not_le few
      rw [same, step_table_of_lt ⟨.ofTruth formula truth, options, saved⟩ many,
        step_table_of_lt ⟨.ofFormula formula, options, saved⟩ many]
      rfl
  | restore => cases saved <;> rfl
  | _ => rw [same]; rfl

/-- A step of a session is a step of its trail. -/
theorem step_session (trail : Trail) (step : Step) :
    ((trail.session formula).step step).2 =
      (trail.step formula.symbols.length step).session formula := by
  have evaluated (evaluation : Evaluation) :
      Session.mk ((Trail.sheet formula trail.history).perform evaluation) trail.options
          (trail.saved.map (Trail.sheet formula)) =
        Trail.session formula { trail with history := evaluation :: trail.history } := by
    rw [perform_sheet]
    rfl
  cases step with
  | evaluate valuation => exact evaluated (.valuation valuation)
  | evaluateRow number | row number => exact evaluated (.row trail.options.toRowOrder number)
  | table =>
    show _ = Trail.session formula { trail with
      history := (Step.evaluation? trail.options _ .table).toList ++ trail.history }
    by_cases few : formula.symbols.length ≤ trail.options.symbolLimit
    · rw [step_table_of_le (trail.session formula) trail.history rfl few,
        Step.evaluation?, if_pos few]
      rfl
    · obtain ⟨truth, same⟩ := exists_ofTruth_sheet formula trail.history
      have many : (trail.session formula).options.symbolLimit <
          (trail.session formula).sheet.symbols.length := by
        show trail.options.symbolLimit < (Trail.sheet formula trail.history).symbols.length
        rw [same]
        exact Nat.lt_of_not_le few
      rw [step_table_of_lt _ many, Step.evaluation?, if_neg few]
      rfl
  | restore => cases h : trail.saved <;> simp [Session.step, Trail.step, Trail.session, h]
  | _ => rfl

/-- A move of a session is a move of its trail. -/
theorem move_session (trail : Trail) (move : Move) :
    (trail.session formula).move move =
      (trail.move formula.symbols.length move).session formula := by
  cases move with
  | step step => exact step_session trail step
  | resume index =>
    show Session.mk ((trail.saved.map _).getD index (Trail.sheet formula _)) _ _ = _
    rw [List.getD_map]
    rfl

/-! ## Whole runs -/

/-- A whole run of a session is followed by its trail. -/
theorem after_session (trail : Trail) (moves : List Move) :
    (trail.session formula).after moves =
      (trail.after formula.symbols.length moves).session formula := by
  induction moves generalizing trail with
  | nil => rfl
  | cons move moves ih =>
    show ((trail.session formula).move move).after moves = _
    rw [move_session, ih]
    rfl

/-- Work on a formula leaves no trace but the values of its last evaluation. After any moves of a
session the worksheet has the nodes, the symbols and the parentheses of a new one. Its values are
all false if its own history has no evaluation, and else those of a new worksheet after the last
one, where a table counts as its last row. Each step answers what it would answer with a new
worksheet in its place. A table is refused exactly if there are too many symbols, and then nothing
changes. -/
theorem after_start_as_fresh (formula : Formula) (moves : List Move) :
    let fresh := Worksheet.ofFormula formula
    let count := formula.symbols.length
    let session := (start formula).after moves
    let trail := Trail.after count {} moves
    let limit := min session.options.maxSymbols 63
    (session.sheet.arena.nodes = fresh.arena.nodes ∧ session.sheet.symbols = fresh.symbols ∧
      session.sheet.arena.parenCounts.toList = fresh.arena.parenCounts.toList) ∧
    session.sheet.truth.toList =
      (match trail.history with
        | [] => List.replicate formula.size false
        | last :: _ => (fresh.perform last).truth.toList) ∧
    (∀ step, (session.step step).1 = ({ session with sheet := fresh }.step step).1) ∧
    (limit < count ∧ session.step .table = (.refused (.tooManySymbols count limit), session) ∨
      count ≤ limit ∧ ∃ text, (session.step .table).1 = .text text) := by
  intro fresh count session trail limit
  have last : session.sheet = Trail.sheet formula trail.history :=
    congrArg Session.sheet (after_session {} moves)
  obtain ⟨truth, same⟩ := exists_ofTruth_sheet formula trail.history
  have sheet : session.sheet = .ofTruth formula truth := last.trans same
  have symbols : session.sheet.symbols = formula.symbols := by
    rw [sheet]
    rfl
  refine ⟨?_, ?_, fun step => ?_, ?_⟩
  · rw [sheet]
    exact ⟨rfl, rfl, rfl⟩
  · rw [last]
    cases trail.history with
    | nil =>
      show (Vector.replicate formula.arena.size false).toList = List.replicate formula.size false
      rw [Vector.toList_replicate, formula.size_arena, formula.length_levelOrder]
    | cons last earlier => rfl
  · have answer := step_fst_sheet formula trail.history session.options session.saved step
    rw [same, ← sheet] at answer
    exact answer
  · rcases Nat.lt_or_ge limit count with many | few
    · have refused := step_table_of_lt session (by rw [symbols]; exact many)
      rw [symbols] at refused
      exact .inl ⟨many, refused⟩
    · have table := step_table_of_le session trail.history last few
      exact .inr ⟨few, _, congrArg Prod.fst table⟩

end Session

end TruthTable
