import TruthTable.Formula.ParseError
import TruthTable.Proofs.Formula.Derivation

/-!
# What is due next

The beginning of a formula settles what may follow it. `Awaits depth tokens due` says that the
tokens begin a formula, that the formula is unfinished, and what is due behind them: a formula, a
connective or a closing parenthesis. The depth counts the formulas that are unfinished.

The relation is stated over the grammar alone. Two lemmas tie it to whole formulas:

- a token that is due can be continued to a formula (`Awaits.completes`);
- a formula that has the tokens as its beginning goes on with a token that is due
  (`Awaits.goes_on`), and is higher than the depth.

Together (`Awaits.continues_iff`) they say that the tokens that are due are exactly those that some
formula has next. That is the measure for the place of an error.
-/

namespace TruthTable

/-- What can be due inside a formula. -/
inductive Due where
  | formula
  | connective
  | close
  deriving DecidableEq, Repr

namespace Due

/-- Whether a token of a kind can stand where this is due. -/
def admits : Due → Kind → Bool
  | .formula, kind => kind != .closeParen && !kind.isBinary
  | .connective, kind => kind.isBinary
  | .close, kind => kind == .closeParen

/-- What is wrong where the text ends and this is due. -/
def missing : Due → ParseError.Cause
  | .formula => .missingFormula
  | .connective => .missingConnective
  | .close => .missingClose

/-- What is wrong with a token that cannot stand where this is due. -/
def refusal (due : Due) (token : Token) : ParseError.Cause :=
  match due with
  | .formula => if token.kind = .closeParen then .strayClose else .missingLeft token.raw
  | .connective => .notConnective token.raw
  | .close => .notClose token.raw

/-- A refused token is no missing one. -/
theorem refusal_ne_missing (due due' : Due) (token : Token) :
    due.refusal token ≠ due'.missing := by
  cases due with
  | formula =>
    rw [refusal]
    split <;> cases due' <;> simp [missing]
  | connective | close => cases due' <;> simp [refusal, missing]

/-- Whether nothing that is due comes next, because another token or no token does. -/
def Fails (due : Due) (rest : List Token) : Prop :=
  ∀ token ∈ rest.head?, due.admits token.kind = false

theorem fails_nil (due : Due) : due.Fails [] := by
  simp [Fails]

theorem fails_cons {due : Due} {token : Token} {rest : List Token} :
    due.Fails (token :: rest) ↔ due.admits token.kind = false := by
  simp [Fails]

end Due

namespace Formula

/-- `Awaits depth tokens due` says that the tokens begin a formula and what is due behind them,
inside `depth` unfinished formulas. -/
inductive Awaits : Nat → List Token → Due → Prop
  | start : Awaits 0 [] .formula
  | not {depth : Nat} {sign : Token} {tokens : List Token} {due : Due} :
      sign.kind = .connective .not → Awaits depth tokens due →
      Awaits (depth + 1) (sign :: tokens) due
  | left {depth : Nat} {first : Token} {tokens : List Token} {due : Due} :
      first.kind = .openParen → Awaits depth tokens due →
      Awaits (depth + 1) (first :: tokens) due
  | connective {first : Token} {before : List Token} {left : Formula} :
      first.kind = .openParen → Derives before left →
      Awaits 1 (first :: before) .connective
  | right {depth : Nat} {first sign : Token} {before tokens : List Token} {op : BinaryOp}
      {left : Formula} {due : Due} :
      first.kind = .openParen → Derives before left → sign.kind = .connective (.binary op) →
      Awaits depth tokens due → Awaits (depth + 1) (first :: (before ++ sign :: tokens)) due
  | close {first sign : Token} {before after : List Token} {op : BinaryOp}
      {left right : Formula} :
      first.kind = .openParen → Derives before left → sign.kind = .connective (.binary op) →
      Derives after right → Awaits 1 (first :: (before ++ sign :: after)) .close

namespace Awaits

variable {depth : Nat} {tokens : List Token} {due : Due}

/-- A formula that begins with the tokens goes on with a token that is due, and is higher than
the depth. -/
theorem goes_on (h : Awaits depth tokens due) {all rest rest' : List Token} {formula : Formula}
    (whole : Derives all formula) (same : tokens ++ rest = all ++ rest') :
    ∃ token more, all = tokens ++ token :: more ∧ due.admits token.kind = true ∧
      depth < formula.height := by
  induction h generalizing all rest rest' formula with
  | start =>
    cases whole with
    | symbol kind | constant kind | not kind _ | binary kind _ _ _ _ =>
      exact ⟨_, _, rfl, by simp [Due.admits, kind, Kind.isBinary], by simp [height]⟩
  | not kind _ ih =>
    cases whole with
    | not _ operand =>
      obtain ⟨rfl, inner⟩ := List.cons.inj same
      obtain ⟨token, more, rfl, admitted, below⟩ := ih operand inner
      exact ⟨token, more, rfl, admitted, by simpa [height] using below⟩
    | _ => simp_all
  | left openKind _ ih =>
    cases whole with
    | binary _ left _ _ _ =>
      rw [List.cons_append, List.cons_append, List.append_assoc] at same
      obtain ⟨rfl, inner⟩ := List.cons.inj same
      obtain ⟨token, more, rfl, admitted, below⟩ := ih left inner
      refine ⟨token, _, congrArg (_ :: ·) (List.append_assoc ..), admitted, ?_⟩
      rw [height]
      omega
    | _ => simp_all
  | connective openKind left =>
    cases whole with
    | binary _ left' signKind right _ =>
      rw [List.cons_append, List.cons_append, List.append_assoc] at same
      obtain ⟨rfl, inner⟩ := List.cons.inj same
      obtain ⟨rfl, rfl, -⟩ := left.unique left' inner
      exact ⟨_, _, rfl, by simp [Due.admits, signKind, Kind.isBinary], one_lt_height_binary⟩
    | _ => simp_all
  | right openKind left signKind _ ih =>
    cases whole with
    | @binary _ _ last _ _ _ _ _ _ left' signKind' right _ =>
      simp only [List.cons_append, List.append_assoc] at same
      obtain ⟨rfl, inner⟩ := List.cons.inj same
      obtain ⟨rfl, rfl, rfl, behindSign⟩ := left.unique_cons left' inner
      obtain ⟨token, more, rfl, admitted, below⟩ := ih right behindSign
      refine ⟨token, more ++ [last], ?_, admitted, ?_⟩
      · simp only [List.cons_append, List.append_assoc]
      · rw [height]
        omega
    | _ => simp_all
  | close openKind left signKind right =>
    cases whole with
    | @binary _ _ last _ _ _ _ _ _ left' _ right' closeKind =>
      simp only [List.cons_append, List.append_assoc] at same
      obtain ⟨rfl, inner⟩ := List.cons.inj same
      obtain ⟨rfl, rfl, rfl, behindSign⟩ := left.unique_cons left' inner
      obtain ⟨rfl, rfl, -⟩ := right.unique right' behindSign
      refine ⟨last, [], ?_, by simp [Due.admits, closeKind], one_lt_height_binary⟩
      simp only [List.cons_append, List.append_assoc]
    | _ => simp_all

/-! ## Completions -/

/-- The tokens of a formula of one symbol. -/
private def letter : List Token := [Token.typed 0 "A"]

private theorem derives_letter : Derives letter (.symbol "A") :=
  .symbol (by decide +kernel)

/-- A connective of two operands. -/
private def ampersand : Token := Token.typed 0 "&"

private theorem kind_ampersand : ampersand.kind = .connective (.binary .and) := by
  decide +kernel

/-- A closing parenthesis. -/
private def closing : Token := Token.typed 0 ")"

private theorem kind_closing : closing.kind = .closeParen := rfl

/-- A token that is due can be continued to a formula. -/
theorem completes (h : Awaits depth tokens due) {token : Token}
    (admitted : due.admits token.kind = true) :
    ∃ more formula, Derives (tokens ++ token :: more) formula := by
  induction h with
  | start =>
    cases kind : token.kind with
    | symbol => exact ⟨[], _, .symbol kind⟩
    | openParen =>
      exact ⟨_, _, .binary kind derives_letter kind_ampersand derives_letter kind_closing⟩
    | closeParen => simp [Due.admits, kind] at admitted
    | connective connective =>
      cases connective with
      | constant => exact ⟨[], _, .constant kind⟩
      | not => exact ⟨_, _, .not kind derives_letter⟩
      | binary => simp [Due.admits, kind, Kind.isBinary] at admitted
  | not kind _ ih =>
    obtain ⟨more, formula, operand⟩ := ih admitted
    exact ⟨more, _, .not kind operand⟩
  | left openKind _ ih =>
    obtain ⟨more, formula, left⟩ := ih admitted
    have derived := Derives.binary openKind left kind_ampersand derives_letter kind_closing
    rw [List.append_assoc] at derived
    exact ⟨_, _, derived⟩
  | connective openKind left =>
    cases kind : token.kind with
    | connective connective =>
      cases connective with
      | binary op =>
        exact ⟨_, _, .binary openKind left kind derives_letter kind_closing⟩
      | _ => simp [Due.admits, kind, Kind.isBinary] at admitted
    | _ => simp [Due.admits, kind, Kind.isBinary] at admitted
  | @right _ _ sign _ _ op operand _ openKind left signKind _ ih =>
    obtain ⟨more, formula, right⟩ := ih admitted
    refine ⟨more ++ [closing], .binary op sign.raw operand formula, ?_⟩
    have derived := Derives.binary openKind left signKind right kind_closing
    simpa only [List.cons_append, List.append_assoc] using derived
  | @close _ sign _ _ op operand operand' openKind left signKind right =>
    have closeKind : token.kind = .closeParen := by simpa [Due.admits] using admitted
    refine ⟨[], .binary op sign.raw operand operand', ?_⟩
    have derived := Derives.binary openKind left signKind right closeKind
    simpa only [List.cons_append, List.append_assoc] using derived

/-- Tokens that begin a formula can go on with exactly the tokens that are due. -/
theorem continues_iff (h : Awaits depth tokens due) {token : Token} :
    (∃ more formula, Derives (tokens ++ token :: more) formula) ↔
      due.admits token.kind = true := by
  refine ⟨fun ⟨more, formula, whole⟩ => ?_, h.completes⟩
  have nothingBehind : tokens ++ token :: more = tokens ++ token :: more ++ [] :=
    (List.append_nil _).symm
  obtain ⟨token', more', same, admitted, -⟩ := h.goes_on whole nothingBehind
  obtain ⟨rfl, -⟩ := List.cons.inj (List.append_cancel_left same)
  exact admitted

/-! ## Where no formula goes on -/

/-- The tokens tell what is due behind them. -/
theorem due_unique {depth' : Nat} {due' : Due} (h : Awaits depth tokens due)
    (h' : Awaits depth' tokens due') : due = due' := by
  have agree (token : Token) : due.admits token.kind = due'.admits token.kind := by
    rw [Bool.eq_iff_iff, ← h.continues_iff, ← h'.continues_iff]
  have onClose := agree closing
  have onBinary := agree ampersand
  rw [kind_ampersand] at onBinary
  rw [kind_closing] at onClose
  cases due <;> cases due' <;> simp_all [Due.admits, Kind.isBinary]

/-- No formula is a beginning of tokens that fail to be the beginning of one. -/
theorem not_derives (h : Awaits depth tokens due) {rest rest' all : List Token}
    {formula : Formula} (fails : due.Fails rest) (same : tokens ++ rest = all ++ rest') :
    ¬ Derives all formula := by
  intro whole
  obtain ⟨token, more, rfl, admitted, -⟩ := h.goes_on whole same
  rw [List.append_assoc] at same
  obtain rfl := List.append_cancel_left same
  rw [List.cons_append, Due.fails_cons, admitted] at fails
  cases fails

/-- Tokens that begin a formula are a beginning of one. -/
theorem viable (h : Awaits depth tokens due) :
    ∃ token more formula, Derives (tokens ++ token :: more) formula := by
  cases due with
  | formula => exact ⟨Token.typed 0 "A", h.completes (by decide +kernel)⟩
  | connective => exact ⟨ampersand, h.completes (by decide +kernel)⟩
  | close => exact ⟨closing, h.completes (by decide +kernel)⟩

/-- Where tokens go on as the beginning of a formula, they go on with a token that is due. -/
theorem admits_next {depth' : Nat} {token : Token} {more : List Token} {due' : Due}
    (h : Awaits depth tokens due) (h' : Awaits depth' (tokens ++ token :: more) due') :
    due.admits token.kind = true := by
  obtain ⟨next, rest, formula, whole⟩ := h'.viable
  rw [List.append_assoc] at whole
  exact h.continues_iff.mp ⟨_, formula, whole⟩

/-- There is no later place at which tokens fail to be the beginning of a formula. -/
private theorem eq_nil_of_fails {depth' : Nat} {more rest : List Token} {due' : Due}
    (h : Awaits depth tokens due) (h' : Awaits depth' (tokens ++ more) due')
    (fails : due.Fails (more ++ rest)) : more = [] := by
  cases more with
  | nil => rfl
  | cons token more =>
    rw [List.cons_append, Due.fails_cons, h.admits_next h'] at fails
    cases fails

/-- The place at which tokens fail to be the beginning of a formula is unique. -/
theorem place_unique {depth' : Nat} {tokens' rest rest' : List Token} {due' : Due}
    (h : Awaits depth tokens due) (h' : Awaits depth' tokens' due')
    (same : tokens ++ rest = tokens' ++ rest') (fails : due.Fails rest)
    (fails' : due'.Fails rest') :
    tokens = tokens' ∧ due = due' ∧ rest = rest' := by
  obtain ⟨more, rfl, rfl⟩ | ⟨more, rfl, rfl⟩ := List.append_eq_append_iff.mp same
  · obtain rfl := h.eq_nil_of_fails h' fails
    rw [List.append_nil] at h' ⊢
    exact ⟨rfl, h.due_unique h', rfl⟩
  · obtain rfl := h'.eq_nil_of_fails h fails'
    rw [List.append_nil] at h ⊢
    exact ⟨rfl, h.due_unique h', rfl⟩

/-- The beginning of a formula has no more connectives of two operands than opening
parentheses, because a connective comes after its parenthesis. -/
theorem binaries_le_openings (h : Awaits depth tokens due) :
    Token.binaries tokens ≤ Token.openings tokens := by
  induction h with
  | start => exact Nat.le_refl 0
  | not kind _ ih => simpa [kind, Kind.isBinary] using ih
  | left openKind _ ih =>
    simp [openKind, Kind.isBinary]
    omega
  | connective openKind left => simp [openKind, Kind.isBinary, left.openings_eq]
  | right openKind left signKind _ ih =>
    simp [openKind, signKind, Kind.isBinary, left.openings_eq]
    omega
  | close openKind left signKind right =>
    simp [openKind, signKind, Kind.isBinary, left.openings_eq, right.openings_eq]
    omega

end Awaits

end Formula

end TruthTable
