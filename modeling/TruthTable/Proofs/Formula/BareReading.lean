import TruthTable.Proofs.Formula.AcceptedTexts

/-!
# Reading without the count

The count of parentheses is a shortcut: it puts the implicit pair around the tokens before anything
is read. `parseBare` is the reading that does not count. It tries the bare tokens and puts the pair
around them only if a formula is complete and tokens are left.

Both readings have the same formulas, since both have those that the tokens spell. They also have
the same errors, which takes an argument on where the bare reading stops:

- it cannot run off the end, because the beginning of a formula has no more connectives of two
  operands than opening parentheses, and the count found more;
- if it refuses a token, the pair adds one unfinished formula in front of the same beginning, so
  the same token is refused there for the same reason.

The one exception is the height limit, which the additional formula can exceed earlier.
-/

namespace TruthTable.Formula

/-- Reads a text without counting parentheses. -/
def parseBare (text : String) : Except ParseError (Option Formula) :=
  match Token.ofText text with
  | [] => .ok none
  | token :: rest => (ofTokensBare text.length (token :: rest)).map some

variable {length : Int} {tokens : List Token}

theorem parseBare_of_ofText_eq_nil {text : String} (empty : Token.ofText text = []) :
    parseBare text = .ok none := by
  rw [parseBare, empty]

theorem parseBare_of_ofText_ne_nil {text : String} (nonempty : Token.ofText text ≠ []) :
    parseBare text = (ofTokensBare text.length (Token.ofText text)).map some := by
  obtain ⟨token, rest, tokens⟩ := List.exists_cons_of_ne_nil nonempty
  rw [parseBare, tokens]

/-- A token that the bare reading refuses is refused inside the implicit pair, unless the nesting
is too deep there. -/
theorem ofTokensEnclosed_of_awaits {depth : Nat} {token : Token} {rest : List Token} {due : Due}
    (awaits : Awaits depth tokens due) (goes : due.endsAt (token :: rest) = false)
    (unfit : due.admits token.kind = false) :
    ofTokensEnclosed length (tokens ++ token :: rest) =
        .error ⟨token.position, due.refusal token⟩ ∨
      ∃ position, ofTokensEnclosed length (tokens ++ token :: rest) =
        .error ⟨position, .tooDeep⟩ := by
  have inside : Awaits (depth + 1) (Token.assumed (-1) "(" :: tokens) due := .left rfl awaits
  have list : Token.enclose length (tokens ++ token :: rest) =
      (Token.assumed (-1) "(" :: tokens) ++ token :: (rest ++ [Token.assumed length ")"]) := by
    simp [Token.enclose]
  have goesInside : due.endsAt (token :: (rest ++ [Token.assumed length ")"])) = false := goes
  have outcome := Reader.formula_of_awaits heightLimit [] inside goesInside unfit
  rw [ofTokensEnclosed, Cursor.start, list]
  rcases outcome with ⟨cursor, result⟩ | ⟨_, _, -, -, position, cursor, result⟩
  · exact .inl (by simp only [result])
  · exact .inr ⟨position, by simp only [result]⟩

/-- Where a parenthesis is lacking, the bare reading has no error of its own. -/
theorem ofTokensBare_error {error : ParseError} (typed : ∀ token ∈ tokens, token.implicit = false)
    (lacks : Token.lacksParen tokens = true) (bare : ofTokensBare length tokens = .error error) :
    error.cause = .tooDeep ∨ ofTokensEnclosed length tokens = .error error ∨
      ∃ position, ofTokensEnclosed length tokens = .error ⟨position, .tooDeep⟩ := by
  have outcome := Reader.formula_outcome heightLimit [] tokens
  rw [ofTokensBare, Cursor.start] at bare
  generalize Reader.formula heightLimit ⟨[], tokens⟩ = result at outcome bare
  cases outcome with
  | @read _ rest _ derived _ =>
    cases rest with
    | nil => cases bare
    | cons => exact .inr (.inl bare)
  | tooDeep _ =>
    obtain rfl := Except.error.inj bare
    exact .inl rfl
  | ended awaits ends =>
    obtain rfl :=
      Due.eq_nil_of_endsAt (fun token mem => typed token (List.mem_append_right _ mem)) ends
    rw [List.append_nil, Token.lacksParen_iff] at lacks
    exact absurd awaits.binaries_le_openings (Nat.not_le_of_lt lacks)
  | refused awaits goes unfit =>
    obtain rfl := Except.error.inj bare
    exact .inr (ofTokensEnclosed_of_awaits awaits goes unfit)

/-- Where neither reading finds the nesting too deep, both have the same error. -/
theorem ofTokens_error_unique {error error' : ParseError}
    (typed : ∀ token ∈ tokens, token.implicit = false)
    (counted : ofTokens length tokens = .error error)
    (bare : ofTokensBare length tokens = .error error')
    (shallow : error.cause ≠ .tooDeep) (shallow' : error'.cause ≠ .tooDeep) : error = error' := by
  cases lacks : Token.lacksParen tokens with
  | false =>
    rw [ofTokens, if_neg (by simp [lacks]), bare] at counted
    exact (Except.error.inj counted).symm
  | true =>
    rw [ofTokens, if_pos lacks] at counted
    rcases ofTokensBare_error typed lacks bare with deep | same | ⟨position, deep⟩
    · exact absurd deep shallow'
    · exact Except.error.inj (counted.symm.trans same)
    · rw [Except.error.inj (counted.symm.trans deep)] at shallow
      exact absurd rfl shallow

/-- Reading with and without the count has the same results. Where neither finds the nesting too
deep, it also has the same errors, at the same positions. -/
theorem parse_agrees_parseBare (text : String) :
    (∀ result, parse text = .ok result ↔ parseBare text = .ok result) ∧
      ∀ error error', parse text = .error error → parseBare text = .error error' →
        error.cause ≠ .tooDeep → error'.cause ≠ .tooDeep → error = error' := by
  by_cases empty : Token.ofText text = []
  · rw [parse_of_ofText_eq_nil empty, parseBare_of_ofText_eq_nil empty]
    exact ⟨fun _ => Iff.rfl, fun _ _ h => by cases h⟩
  · rw [parse_of_ofText_ne_nil empty, parseBare_of_ofText_ne_nil empty]
    refine ⟨fun result => ?_, fun error error' counted bare shallow shallow' => ?_⟩
    · simp only [map_some_eq_ok_iff, ofTokens_eq_ok_iff, ofTokensBare_eq_ok_iff]
    · rw [map_some_eq_error_iff] at counted bare
      exact ofTokens_error_unique (fun _ mem => Token.implicit_of_mem_ofText mem) counted bare
        shallow shallow'

/-- The count finds a parenthesis lacking, and both readings refuse the same token. -/
theorem parse_agrees_parseBare_of_refused :
    ∃ error error', parse "(A B) & C & D" = .error error ∧
      parseBare "(A B) & C & D" = .error error' ∧ error.cause ≠ .tooDeep ∧
      error'.cause ≠ .tooDeep ∧ error = error' := by
  have counted : parse "(A B) & C & D" = .error ⟨3, .notConnective "B"⟩ := by decide +kernel
  have bare : parseBare "(A B) & C & D" = .error ⟨3, .notConnective "B"⟩ := by decide +kernel
  have agree := (parse_agrees_parseBare "(A B) & C & D").2 _ _ counted bare (by decide) (by decide)
  exact ⟨_, _, counted, bare, by decide, by decide, agree⟩

end TruthTable.Formula
