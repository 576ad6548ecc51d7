import TruthTable.Proofs.Formula.Surplus

/-!
# Passes over the tokens

Seen step by step, reading a text is a loop. A pass reads the tokens as it finds them. If it leaves
tokens over, the implicit pair is put around them and another pass is made, unless the pair is
around them already. Nothing in a pass bounds the number of passes. What does is the pair: a pass
that is made again has it (`Pass.again_spec`), so no run has more than two passes
(`Pass.Run.length_le`), and from every pass on there is a run (`Pass.exists_run`). `ofTokens` has
the answer of this run (`Pass.Run.answer_eq`).

The second pass of a run never succeeds (`Pass.error_of_again`). It would read tokens that lack
their outermost pair, and these have one opening parenthesis less than connectives of two operands,
so the count had put the pair around them in front of the first pass.
-/

namespace TruthTable.Formula

/-- A pass: the tokens that it reads, and whether they have the implicit pair around. -/
structure Pass where
  tokens : List Token
  enclosed : Bool

namespace Pass

/-- What a pass ends in: the answer, or another pass. -/
inductive Ending where
  | answer (answer : Except ParseError Formula)
  | again (next : Pass)

/-- The first pass over the tokens of a text of `length` characters. -/
def first (length : Int) (tokens : List Token) : Pass :=
  if Token.lacksParen tokens then ⟨Token.enclose length tokens, true⟩ else ⟨tokens, false⟩

/-- What a pass ends in. A formula that leaves tokens over is the answer only inside the pair, as an
error at the last token that was taken. -/
def ending (length : Int) (pass : Pass) : Ending :=
  match Reader.formula heightLimit (.start pass.tokens) with
  | .error error _ => .answer (.error error)
  | .ok formula ⟨_, []⟩ => .answer (.ok formula)
  | .ok _ ⟨taken, _ :: _⟩ =>
    if pass.enclosed then
      .answer (.error ⟨(taken.head?.map (·.position)).getD 0, .unmatchedClose⟩)
    else
      .again ⟨Token.enclose length pass.tokens, true⟩

/-- `Run length pass passes answer` says that from the pass on the passes are made in turn, and that
the last one has the answer. -/
inductive Run (length : Int) : Pass → List Pass → Except ParseError Formula → Prop
  | answered {pass : Pass} {answer : Except ParseError Formula} :
      pass.ending length = .answer answer → Run length pass [pass] answer
  | again {pass next : Pass} {passes : List Pass} {answer : Except ParseError Formula} :
      pass.ending length = .again next → Run length next passes answer →
      Run length pass (pass :: passes) answer

variable {length : Int} {tokens : List Token} {pass next : Pass} {passes passes' : List Pass}
  {answer answer' : Except ParseError Formula}

/-! ## One pass -/

/-- What is known when a pass is made again: it read a formula and left tokens over, outside the
implicit pair, and the next pass is made inside it. -/
theorem again_spec (again : pass.ending length = .again next) :
    pass.enclosed = false ∧ next = ⟨Token.enclose length pass.tokens, true⟩ ∧
      ∃ formula taken token rest, Reader.formula heightLimit (.start pass.tokens) =
        .ok formula ⟨taken, token :: rest⟩ := by
  rw [ending] at again
  split at again
  case h_1 | h_2 => cases again
  case h_3 formula taken token rest read =>
    split at again
    · cases again
    case isFalse outside =>
      cases again
      exact ⟨by simpa using outside, rfl, formula, taken, token, rest, read⟩

/-- A pass outside the implicit pair that leaves tokens over is made again inside it. -/
theorem again_of_left_over {formula : Formula} {taken rest : List Token} {token : Token}
    (read : Reader.formula heightLimit (.start tokens) = .ok formula ⟨taken, token :: rest⟩) :
    ending length ⟨tokens, false⟩ = .again ⟨Token.enclose length tokens, true⟩ := by
  simp only [ending, read, Bool.false_eq_true, if_false]

/-- A pass inside the pair has the answer of the reading inside the pair. -/
theorem ending_enclosed (length : Int) (tokens : List Token) :
    ending length ⟨Token.enclose length tokens, true⟩ =
      .answer (ofTokensEnclosed length tokens) := by
  simp only [ending, ofTokensEnclosed]
  generalize Reader.formula heightLimit (.start (Token.enclose length tokens)) = result
  rcases result with ⟨formula, taken, _ | ⟨token, rest⟩⟩ | ⟨error, cursor⟩ <;> rfl

/-- A pass outside the pair has the answer of the bare reading. -/
theorem ofTokensBare_of_answer (answered : ending length ⟨tokens, false⟩ = .answer answer) :
    answer = ofTokensBare length tokens := by
  simp only [ending] at answered
  rw [ofTokensBare]
  generalize Reader.formula heightLimit (.start tokens) = result at answered ⊢
  rcases result with ⟨formula, taken, _ | ⟨token, rest⟩⟩ | ⟨error, cursor⟩ <;> cases answered <;> rfl

/-- A pass that is made again leaves the answer to the reading inside the pair. -/
theorem ofTokensBare_of_again (again : ending length ⟨tokens, false⟩ = .again next) :
    ofTokensBare length tokens = ofTokensEnclosed length tokens := by
  obtain ⟨-, -, formula, taken, token, rest, read⟩ := again_spec again
  simp only at read
  simp only [ofTokensBare, read]

/-! ## Runs -/

/-- A run has one pass inside the pair, and at most one more in front of it. -/
theorem Run.length_le (run : Run length pass passes answer) :
    passes.length ≤ if pass.enclosed then 1 else 2 := by
  induction run with
  | answered => split <;> simp
  | again again _ ih =>
    obtain ⟨outside, rfl, -⟩ := again_spec again
    rw [if_neg (by simp [outside])]
    exact Nat.succ_le_succ ih

/-- From every pass on there is a run. -/
theorem exists_run (length : Int) (pass : Pass) :
    ∃ passes answer, Run length pass passes answer := by
  cases ends : pass.ending length with
  | answer answer => exact ⟨_, _, .answered ends⟩
  | again next =>
    obtain ⟨-, rfl, -⟩ := again_spec ends
    exact ⟨_, _, .again ends (.answered (ending_enclosed length pass.tokens))⟩

/-- There is one run only. -/
theorem Run.unique (run : Run length pass passes answer) (run' : Run length pass passes' answer') :
    passes = passes' ∧ answer = answer' := by
  induction run generalizing passes' with
  | answered ends =>
    cases run' with
    | answered ends' =>
      cases ends.symm.trans ends'
      exact ⟨rfl, rfl⟩
    | again ends' => cases ends.symm.trans ends'
  | again ends _ ih =>
    cases run' with
    | answered ends' => cases ends.symm.trans ends'
    | again ends' run' =>
      cases ends.symm.trans ends'
      obtain ⟨rfl, rfl⟩ := ih run'
      exact ⟨rfl, rfl⟩

/-- Tokens are read as the answer of the run. -/
theorem Run.answer_eq (run : Run length (first length tokens) passes answer) :
    answer = ofTokens length tokens := by
  rw [first] at run
  rw [ofTokens]
  split at run
  case isTrue lacks =>
    rw [if_pos lacks]
    exact (run.unique (.answered (ending_enclosed length tokens))).2
  case isFalse enough =>
    rw [if_neg enough]
    cases run with
    | answered ends => exact ofTokensBare_of_answer ends
    | again ends run =>
      obtain ⟨-, rfl, -⟩ := again_spec ends
      rw [ofTokensBare_of_again ends]
      exact (run.unique (.answered (ending_enclosed length tokens))).2

/-- The first pass is made outside the pair only if no parenthesis is lacking. -/
theorem lacksParen_of_outside (outside : (first length tokens).enclosed = false) :
    Token.lacksParen tokens = false := by
  rw [first] at outside
  split at outside
  · cases outside
  · simp_all

theorem first_of_outside (outside : (first length tokens).enclosed = false) :
    first length tokens = ⟨tokens, false⟩ :=
  if_neg (by simp [lacksParen_of_outside outside])

/-- The second pass of a run fails. -/
theorem error_of_again (again : (first length tokens).ending length = .again next) :
    ∃ error, next.ending length = .answer (.error error) := by
  obtain ⟨outside, rfl, -⟩ := again_spec again
  rw [first_of_outside outside, ending_enclosed]
  cases result : ofTokensEnclosed length tokens with
  | error error => exact ⟨error, rfl⟩
  | ok formula =>
    obtain ⟨joins, -⟩ := ofTokensEnclosed_eq_ok_iff.mp result
    cases (lacksParen_of_outside outside).symm.trans (lacksParen_of_joins joins)

/-! ## Texts -/

/-- How the reading of a text ends. There is one run of passes, it has at most two, and the text is
read as its answer. If the first pass is made outside the implicit pair and leaves tokens over, a
second one is made inside the pair, and it fails. If a formula that was read inside the pair leaves
tokens over, the last token that was taken is a closing parenthesis of the text, and the last one
that is left over is the implicit closing parenthesis. -/
theorem parse_passes (text : String) (nonempty : Token.ofText text ≠ []) :
    (∃ passes answer,
      (∀ passes' answer', Run text.length (first text.length (Token.ofText text)) passes' answer' ↔
        passes' = passes ∧ answer' = answer) ∧
      passes.length ≤ 2 ∧ parse text = answer.map some) ∧
      (∀ formula taken token rest, (first text.length (Token.ofText text)).enclosed = false →
        Reader.formula heightLimit (.start (Token.ofText text)) =
          .ok formula ⟨taken, token :: rest⟩ →
        ∃ next error, (first text.length (Token.ofText text)).ending text.length = .again next ∧
          next = ⟨Token.enclose text.length (Token.ofText text), true⟩ ∧
          next.ending text.length = .answer (.error error)) ∧
      ∀ formula taken token rest,
        Reader.formula heightLimit (.start (Token.enclose text.length (Token.ofText text))) =
          .ok formula ⟨taken, token :: rest⟩ →
        ∃ last before, taken = last :: before ∧ last ∈ Token.ofText text ∧
          last.kind = .closeParen ∧ last.implicit = false ∧
          (token :: rest).getLast? = some (Token.assumed text.length ")") := by
  refine ⟨?_, fun formula taken token rest outside read => ?_,
    fun formula taken token rest read => ?_⟩
  · obtain ⟨passes, answer, run⟩ := exists_run text.length (first text.length (Token.ofText text))
    refine ⟨passes, answer, fun passes' answer' => ⟨fun run' => run'.unique run, ?_⟩, ?_, ?_⟩
    · rintro ⟨rfl, rfl⟩
      exact run
    · have bound := run.length_le
      split at bound <;> omega
    · rw [parse_of_ofText_ne_nil nonempty, run.answer_eq]
  · have again : (first text.length (Token.ofText text)).ending text.length =
        .again ⟨Token.enclose text.length (Token.ofText text), true⟩ := by
      rw [first_of_outside outside]
      exact again_of_left_over read
    obtain ⟨error, failed⟩ := error_of_again again
    exact ⟨_, error, again, rfl, failed⟩
  · obtain ⟨inner, close, after, split, rfl, left, -, -, closeKind⟩ := left_over_of_enclosed read
    have mem : close ∈ Token.ofText text := by
      rw [split]
      exact List.mem_append_right _ List.mem_cons_self
    refine ⟨close, _, rfl, mem, closeKind, Token.implicit_of_mem_ofText mem, ?_⟩
    rw [left, List.getLast?_concat]

/-- A second pass is made, inside the pair, and it leaves a typed parenthesis over. -/
theorem parse_passes_of_retry :
    let text := "p & q) ("
    Token.ofText text ≠ [] ∧ (first text.length (Token.ofText text)).enclosed = false ∧
      (∃ error, (first text.length (Token.ofText text)).ending text.length =
          .again ⟨Token.enclose text.length (Token.ofText text), true⟩ ∧
        ending text.length ⟨Token.enclose text.length (Token.ofText text), true⟩ =
          .answer (.error error)) ∧
      ∃ passes answer, Run text.length (first text.length (Token.ofText text)) passes answer ∧
        passes.length ≤ 2 ∧ parse text = answer.map some := by
  intro text
  have split : Token.ofText text = [Token.typed 0 "p"] ++ Token.typed 2 "&" ::
      [Token.typed 4 "q", Token.typed 5 ")", Token.typed 7 "("] := by decide +kernel
  have nonempty : Token.ofText text ≠ [] := by
    rw [split]
    simp
  have outside : (first text.length (Token.ofText text)).enclosed = false := by decide +kernel
  have symbol : Derives [Token.typed 0 "p"] (.symbol "p") := .symbol (by decide +kernel)
  have read := Reader.formula_of_derives [] (Token.typed 2 "&" ::
    [Token.typed 4 "q", Token.typed 5 ")", Token.typed 7 "("]) symbol
    (by decide : _ ≤ heightLimit)
  rw [← split] at read
  obtain ⟨⟨passes, answer, only, few, same⟩, retry, -⟩ := parse_passes text nonempty
  obtain ⟨next, error, again, rfl, failed⟩ := retry _ _ _ _ outside read
  exact ⟨nonempty, outside, ⟨error, again, failed⟩, passes, answer, (only _ _).mpr ⟨rfl, rfl⟩, few,
    same⟩

end Pass

end TruthTable.Formula
