import TruthTable.Formula.Parser
import TruthTable.Proofs.Formula.Depth

/-!
# What reading a formula ends in

`Reader.Outcome` lists the four ways in which the reader of a formula can end, each in terms of
the grammar: it has read a formula, it is too deep, it needs more than the text has, or it refuses
a token. `Reader.formula_outcome` says that the reader always ends in one of them. It is the only
place where the reader is opened.

The four ways exclude each other, since a token list has at most one formula as a beginning and
one place where it fails to be the beginning of one. So the converses follow without a second look
at the reader: tokens that have a formula as a beginning are read as that formula or are too deep
(`formula_of_derives`, `formula_of_height_lt`), and tokens that fail somewhere fail there or are
too deep.
-/

namespace TruthTable

namespace Due

/-- Whether a reader that needs what is due sees the end of the text: there are no tokens, or the
implicit closing parenthesis comes next and is not what is due. -/
def endsAt (due : Due) : List Token → Bool
  | [] => true
  | token :: _ => due != .close && (token.implicit && token.kind == .closeParen)

theorem fails_of_endsAt {due : Due} {rest : List Token} (ends : due.endsAt rest = true) :
    due.Fails rest := by
  cases rest with
  | nil => exact fails_nil due
  | cons token rest =>
    rw [fails_cons]
    cases due <;> simp_all [endsAt, admits, Kind.isBinary]

/-- Typed tokens end only where there are no more of them. -/
theorem eq_nil_of_endsAt {due : Due} {rest : List Token}
    (typed : ∀ token ∈ rest, token.implicit = false) (ends : due.endsAt rest = true) :
    rest = [] := by
  cases rest with
  | nil => rfl
  | cons token rest => simp [endsAt, typed token List.mem_cons_self] at ends

end Due

namespace Reader

variable {levels : Nat} {taken : List Token}

theorem bind_ok {σ α β : Type} {x : EStateM ParseError σ α} {state state' : σ} {a : α}
    (h : x state = .ok a state') (f : α → EStateM ParseError σ β) :
    (x >>= f) state = f a state' := by
  simp only [bind, EStateM.bind, h]

theorem bind_error {σ α β : Type} {x : EStateM ParseError σ α} {state state' : σ}
    {error : ParseError} (h : x state = .error error state') (f : α → EStateM ParseError σ β) :
    (x >>= f) state = .error error state' := by
  simp only [bind, EStateM.bind, h]

@[simp] theorem pure_apply {α : Type} (a : α) (cursor : Cursor) :
    (pure a : Reader α) cursor = .ok a cursor :=
  rfl

@[simp] theorem failAt_apply {α : Type} (position : Int) (cause : ParseError.Cause)
    (cursor : Cursor) :
    (failAt position cause : Reader α) cursor = .error ⟨position, cause⟩ cursor :=
  rfl

theorem next_nil (cause : ParseError.Cause) :
    next cause ⟨taken, []⟩ = .error ⟨(Cursor.mk taken []).typedEnd, cause⟩ ⟨taken, []⟩ :=
  rfl

theorem next_cons (cause : ParseError.Cause) (token : Token) (rest : List Token) :
    next cause ⟨taken, token :: rest⟩ = .ok token ⟨token :: taken, rest⟩ :=
  rfl

/-- Where a token is due that is not a closing parenthesis, the end of the text is missing it. -/
theorem nextTyped_end {due : Due} {rest : List Token} (notClose : due ≠ .close)
    (ends : due.endsAt rest = true) (cause : ParseError.Cause) :
    nextTyped cause ⟨taken, rest⟩ =
      .error ⟨(Cursor.mk taken rest).typedEnd, cause⟩ ⟨taken, rest⟩ := by
  cases rest with
  | nil => rfl
  | cons token rest =>
    have seen : (token.implicit && token.kind == .closeParen) = true := by
      simpa [Due.endsAt, notClose] using ends
    simp only [nextTyped, seen, if_true]

/-- Where a token is due that is not a closing parenthesis, any other token is taken. -/
theorem nextTyped_take {due : Due} {token : Token} {rest : List Token} (notClose : due ≠ .close)
    (goes : due.endsAt (token :: rest) = false) (cause : ParseError.Cause) :
    nextTyped cause ⟨taken, token :: rest⟩ = .ok token ⟨token :: taken, rest⟩ := by
  have unseen : (token.implicit && token.kind == .closeParen) = false := by
    simpa [Due.endsAt, notClose] using goes
  simp only [nextTyped, unseen, Bool.false_eq_true, if_false, next_cons]

/-- `Outcome levels taken tokens result` says that reading a formula of at most `levels` levels
from the tokens may end in the result, where `taken` was taken before. -/
inductive Outcome (levels : Nat) (taken : List Token) :
    List Token → EStateM.Result ParseError Cursor Formula → Prop
  /-- The tokens begin with a formula. -/
  | read {tokens rest : List Token} {formula : Formula} :
      Formula.Derives tokens formula → formula.height ≤ levels →
      Outcome levels taken (tokens ++ rest) (.ok formula ⟨tokens.reverse ++ taken, rest⟩)
  /-- All levels are in use, and a formula is due, for the first time. -/
  | tooDeep {tokens rest : List Token} :
      Formula.Reaches levels tokens →
      Outcome levels taken (tokens ++ rest)
        (.error ⟨(Cursor.mk (tokens.reverse ++ taken) rest).nextPosition, .tooDeep⟩
          ⟨tokens.reverse ++ taken, rest⟩)
  /-- The text ends inside a formula. -/
  | ended {depth : Nat} {tokens rest : List Token} {due : Due} :
      Formula.Awaits depth tokens due → due.endsAt rest = true →
      Outcome levels taken (tokens ++ rest)
        (.error ⟨(Cursor.mk (tokens.reverse ++ taken) rest).typedEnd, due.missing⟩
          ⟨tokens.reverse ++ taken, rest⟩)
  /-- A token is not what is due. -/
  | refused {depth : Nat} {tokens rest : List Token} {token : Token} {due : Due} :
      Formula.Awaits depth tokens due → due.endsAt (token :: rest) = false →
      due.admits token.kind = false →
      Outcome levels taken (tokens ++ token :: rest)
        (.error ⟨token.position, due.refusal token⟩ ⟨token :: (tokens.reverse ++ taken), rest⟩)

/-- An error inside an operand is the error of the formula around it. The operand comes behind the
tokens `before`. -/
theorem Outcome.around (before : List Token) {rest : List Token} {error : ParseError}
    {cursor : Cursor}
    (extend : ∀ {depth : Nat} {tokens : List Token} {due : Due},
      Formula.Awaits depth tokens due → Formula.Awaits (depth + 1) (before ++ tokens) due)
    (deepen : ∀ {tokens : List Token},
      Formula.Reaches levels tokens → Formula.Reaches (levels + 1) (before ++ tokens))
    (h : Outcome levels (before.reverse ++ taken) rest (.error error cursor)) :
    Outcome (levels + 1) taken (before ++ rest) (.error error cursor) := by
  cases h with
  | @tooDeep tokens rest reaches =>
    have : Outcome (levels + 1) taken (before ++ tokens ++ rest) _ := .tooDeep (deepen reaches)
    simpa only [List.reverse_append, List.append_assoc] using this
  | @ended _ tokens rest _ awaits ends =>
    have : Outcome (levels + 1) taken _ _ := .ended (extend awaits) ends
    simpa only [List.reverse_append, List.append_assoc] using this
  | @refused _ tokens rest token _ awaits goes unfit =>
    have : Outcome (levels + 1) taken _ _ := .refused (extend awaits) goes unfit
    simpa only [List.reverse_append, List.append_assoc] using this

/-- Behind a connective and its left operand, where the reader of operands is known. -/
private theorem right_outcome {operand : Reader Formula} {first sign : Token}
    {before rest : List Token} {op : BinaryOp} {left : Formula}
    (spec : ∀ taken rest, Outcome levels taken rest (operand ⟨taken, rest⟩))
    (openKind : first.kind = .openParen) (leftDerived : Formula.Derives before left)
    (leftBelow : left.height ≤ levels) (signKind : sign.kind = .connective (.binary op)) :
    Outcome (levels + 1) taken (first :: (before ++ sign :: rest))
      ((do
        let right ← operand
        let close ← next .missingClose
        if close.kind = .closeParen then
          return .binary op sign.raw left right
        else
          failAt close.position (.notClose close.raw) : Reader Formula)
        ⟨sign :: (before.reverse ++ first :: taken), rest⟩) := by
  have ofRight := spec (sign :: (before.reverse ++ first :: taken)) rest
  cases rightResult : operand ⟨sign :: (before.reverse ++ first :: taken), rest⟩ with
  | error error cursor =>
    rw [rightResult] at ofRight
    rw [bind_error rightResult]
    have inside : Outcome levels ((first :: (before ++ [sign])).reverse ++ taken) rest
        (.error error cursor) := by
      simpa using ofRight
    have := inside.around (first :: (before ++ [sign]))
      (fun awaits => by simpa using Formula.Awaits.right openKind leftDerived signKind awaits)
      (fun reaches => by
        simpa using Formula.Reaches.right openKind leftDerived leftBelow signKind reaches)
    simpa using this
  | ok right cursor =>
    rw [rightResult] at ofRight
    rw [bind_ok rightResult]
    cases ofRight with | @read after rest _ rightDerived rightBelow
    have atClose := Formula.Awaits.close openKind leftDerived signKind rightDerived
    cases rest with
    | nil =>
      rw [bind_error (next_nil _)]
      have : Outcome (levels + 1) taken (_ ++ []) _ := .ended atClose rfl
      simpa [Due.missing] using this
    | cons close rest =>
      rw [bind_ok (next_cons _ _ _)]
      by_cases closeKind : close.kind = .closeParen
      · rw [if_pos closeKind]
        have derived := Formula.Derives.binary openKind leftDerived signKind rightDerived closeKind
        have below : (Formula.binary op sign.raw left right).height ≤ levels + 1 := by
          rw [Formula.height]
          omega
        have : Outcome (levels + 1) taken (_ ++ rest) _ := .read derived below
        simpa using this
      · rw [if_neg closeKind]
        have : Outcome (levels + 1) taken (_ ++ close :: rest) _ :=
          .refused atClose rfl (by simpa [Due.admits] using closeKind)
        simpa [Due.refusal] using this

/-- Behind an opening parenthesis, where the reader of operands is known. -/
private theorem pair_outcome {operand : Reader Formula} {first : Token} {rest : List Token}
    (spec : ∀ taken rest, Outcome levels taken rest (operand ⟨taken, rest⟩))
    (openKind : first.kind = .openParen) :
    Outcome (levels + 1) taken (first :: rest) (pair operand ⟨first :: taken, rest⟩) := by
  have ofLeft := spec (first :: taken) rest
  cases leftResult : operand ⟨first :: taken, rest⟩ with
  | error error cursor =>
    rw [leftResult] at ofLeft
    rw [pair, bind_error leftResult]
    exact ofLeft.around [first] (.left openKind) (.left openKind)
  | ok left cursor =>
    rw [leftResult] at ofLeft
    rw [pair, bind_ok leftResult]
    cases ofLeft with | @read before rest _ leftDerived leftBelow
    have atSign := Formula.Awaits.connective openKind leftDerived
    cases ends : Due.connective.endsAt rest with
    | true =>
      rw [bind_error (nextTyped_end (by decide) ends _)]
      have : Outcome (levels + 1) taken _ _ := .ended atSign ends
      simpa [Due.missing] using this
    | false =>
      obtain _ | ⟨sign, rest⟩ := rest
      · cases ends
      rw [bind_ok (nextTyped_take (by decide) ends _)]
      have refuse (unfit : sign.kind.isBinary = false) :
          Outcome (levels + 1) taken (first :: (before ++ sign :: rest))
            (.error ⟨sign.position, .notConnective sign.raw⟩
              ⟨sign :: (before.reverse ++ first :: taken), rest⟩) := by
        have : Outcome (levels + 1) taken _ _ := .refused atSign ends unfit
        simpa [Due.refusal] using this
      cases kind : sign.kind with
      | connective connective =>
        cases connective with
        | binary op => exact right_outcome spec openKind leftDerived leftBelow kind
        | _ => exact refuse (by rw [kind]; rfl)
      | _ => exact refuse (by rw [kind]; rfl)

/-- Reading a formula ends in one of the four ways. -/
theorem formula_outcome (levels : Nat) (taken rest : List Token) :
    Outcome levels taken rest (formula levels ⟨taken, rest⟩) := by
  induction levels generalizing taken rest with
  | zero =>
    show Outcome 0 taken ([] ++ rest) _
    exact .tooDeep .start
  | succ levels ih =>
    cases ends : Due.formula.endsAt rest with
    | true =>
      rw [formula, bind_error (nextTyped_end (by decide) ends _)]
      show Outcome (levels + 1) taken ([] ++ rest) _
      exact .ended .start ends
    | false =>
      obtain _ | ⟨token, rest⟩ := rest
      · cases ends
      rw [formula, bind_ok (nextTyped_take (by decide) ends _)]
      cases kind : token.kind with
      | symbol =>
        show Outcome (levels + 1) taken ([token] ++ rest) _
        exact .read (.symbol kind) (by simp [Formula.height])
      | openParen => exact pair_outcome ih kind
      | closeParen =>
        have : Outcome (levels + 1) taken _ _ :=
          .refused .start ends (by simp [Due.admits, kind])
        simpa [Due.refusal, kind] using this
      | connective connective =>
        cases connective with
        | constant value =>
          show Outcome (levels + 1) taken ([token] ++ rest) _
          exact .read (.constant kind) (by simp [Formula.height])
        | binary op =>
          have : Outcome (levels + 1) taken _ _ :=
            .refused .start ends (by simp [Due.admits, kind, Kind.isBinary])
          simpa [Due.refusal, kind] using this
        | not =>
          have ofOperand := ih (token :: taken) rest
          cases operandResult : formula levels ⟨token :: taken, rest⟩ with
          | error error cursor =>
            rw [operandResult] at ofOperand
            simp only [bind_error operandResult]
            exact ofOperand.around [token] (.not kind) (.not kind)
          | ok operand cursor =>
            rw [operandResult] at ofOperand
            simp only [bind_ok operandResult, pure_apply]
            cases ofOperand with | @read tokens rest _ derived below
            have : Outcome (levels + 1) taken (_ ++ rest) _ :=
              .read (.not kind derived) (Nat.succ_le_succ below)
            simpa using this

/-! ## What the tokens decide

The ways to end exclude each other, so each is reached where its tokens are. -/

variable {tokens : List Token}

/-- What is read as a formula spells it. -/
theorem derives_of_formula {all rest taken' : List Token} {formula : Formula}
    (read : Reader.formula levels ⟨taken, all⟩ = .ok formula ⟨taken', rest⟩) :
    ∃ tokens, all = tokens ++ rest ∧ taken' = tokens.reverse ++ taken ∧
      Formula.Derives tokens formula ∧ formula.height ≤ levels := by
  have outcome := formula_outcome levels taken all
  rw [read] at outcome
  cases outcome with
  | read derived below => exact ⟨_, rfl, rfl, derived, below⟩

/-- Tokens that begin with a formula are read as the formula or are too deep, as its height has
it. -/
private theorem outcome_of_derives (taken rest : List Token) {formula : Formula}
    (derived : Formula.Derives tokens formula) :
    (formula.height ≤ levels ∧ Reader.formula levels ⟨taken, tokens ++ rest⟩ =
        .ok formula ⟨tokens.reverse ++ taken, rest⟩) ∨
      (levels < formula.height ∧ ∃ before behind cursor,
        Formula.Reaches levels before ∧ tokens ++ rest = before ++ behind ∧
          Reader.formula levels ⟨taken, tokens ++ rest⟩ =
            .error ⟨(Cursor.mk (before.reverse ++ taken) behind).nextPosition, .tooDeep⟩
              cursor) := by
  have outcome := formula_outcome levels taken (tokens ++ rest)
  generalize Reader.formula levels ⟨taken, tokens ++ rest⟩ = result at outcome ⊢
  generalize same : tokens ++ rest = all at outcome
  cases outcome with
  | read derived' below =>
    obtain ⟨rfl, rfl, rfl⟩ := derived.unique derived' same
    exact .inl ⟨below, rfl⟩
  | tooDeep reaches =>
    obtain ⟨-, -, -, -, above⟩ := reaches.awaits.goes_on derived same.symm
    exact .inr ⟨above, _, _, _, reaches, rfl, rfl⟩
  | ended awaits ends =>
    exact absurd derived (awaits.not_derives (Due.fails_of_endsAt ends) same.symm)
  | refused awaits _ unfit =>
    exact absurd derived (awaits.not_derives (Due.fails_cons.mpr unfit) same.symm)

/-- A formula that is not too high is read, whatever comes behind it. -/
theorem formula_of_derives (taken rest : List Token) {formula : Formula}
    (derived : Formula.Derives tokens formula) (below : formula.height ≤ levels) :
    Reader.formula levels ⟨taken, tokens ++ rest⟩ =
      .ok formula ⟨tokens.reverse ++ taken, rest⟩ := by
  rcases outcome_of_derives taken rest derived with ⟨-, read⟩ | ⟨above, -⟩
  · exact read
  · exact absurd above (Nat.not_lt_of_le below)

/-- A formula that is too high is refused as such, whatever comes behind it, at the first place that
it has no level for. -/
theorem formula_of_height_lt (taken rest : List Token) {formula : Formula}
    (derived : Formula.Derives tokens formula) (above : levels < formula.height) :
    ∃ before behind cursor, Formula.Reaches levels before ∧ tokens ++ rest = before ++ behind ∧
      Reader.formula levels ⟨taken, tokens ++ rest⟩ =
        .error ⟨(Cursor.mk (before.reverse ++ taken) behind).nextPosition, .tooDeep⟩ cursor := by
  rcases outcome_of_derives taken rest derived with ⟨below, -⟩ | ⟨-, deep⟩
  · exact absurd above (Nat.not_lt_of_le below)
  · exact deep

/-- A token that is not what is due is refused, whatever comes behind it, unless some place is too
deep. -/
theorem formula_of_awaits (levels : Nat) (taken : List Token) {depth : Nat} {token : Token}
    {rest : List Token} {due : Due} (awaits : Formula.Awaits depth tokens due)
    (goes : due.endsAt (token :: rest) = false) (unfit : due.admits token.kind = false) :
    (∃ cursor, Reader.formula levels ⟨taken, tokens ++ token :: rest⟩ =
        .error ⟨token.position, due.refusal token⟩ cursor) ∨
      ∃ before behind, Formula.Reaches levels before ∧ tokens ++ token :: rest = before ++ behind ∧
        ∃ position cursor, Reader.formula levels ⟨taken, tokens ++ token :: rest⟩ =
          .error ⟨position, .tooDeep⟩ cursor := by
  have outcome := formula_outcome levels taken (tokens ++ token :: rest)
  generalize Reader.formula levels ⟨taken, tokens ++ token :: rest⟩ = result at outcome ⊢
  generalize same : tokens ++ token :: rest = all at outcome
  have fails : due.Fails (token :: rest) := Due.fails_cons.mpr unfit
  cases outcome with
  | read derived _ => exact absurd derived (awaits.not_derives fails same)
  | tooDeep reaches => exact .inr ⟨_, _, reaches, rfl, _, _, rfl⟩
  | ended awaits' ends =>
    obtain ⟨rfl, rfl, rfl⟩ := awaits.place_unique awaits' same fails (Due.fails_of_endsAt ends)
    rw [goes] at ends
    cases ends
  | refused awaits' _ unfit' =>
    obtain ⟨rfl, rfl, sameRest⟩ :=
      awaits.place_unique awaits' same fails (Due.fails_cons.mpr unfit')
    obtain ⟨rfl, rfl⟩ := List.cons.inj sameRest
    exact .inl ⟨_, rfl⟩

end Reader

end TruthTable
