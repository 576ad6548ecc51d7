import TruthTable.Proofs.Formula.ErrorPlace

/-!
# Tokens behind a formula

Once a formula is complete, a token behind it settles what the text is, and nothing that comes
behind this token matters. A closing parenthesis behind a formula whose outermost pair is missing
has no partner (`ofTokens_eq_unmatched_iff`), and this is the only way in which a parenthesis has
none. Any other token behind a formula but a connective of two operands stands where such a
connective is due (`ofTokens_of_not_connective`).

The tokens further behind decide by their number whether the first reading has an implicit pair
around it. It comes to the same: a bare reading leaves tokens over, and then the reading inside the
pair decides (`ofTokens_of_bare`).
-/

namespace TruthTable.Formula

variable {length : Int} {tokens front rest : List Token} {token : Token} {formula : Formula}

/-! ## Tokens that are left over -/

/-- Where the bare reading leaves the decision to the reading inside an implicit pair, that reading
decides, whether or not a parenthesis is lacking. -/
theorem ofTokens_of_bare (bare : ofTokensBare length tokens = ofTokensEnclosed length tokens) :
    ofTokens length tokens = ofTokensEnclosed length tokens := by
  rw [ofTokens]
  split
  · rfl
  · exact bare

/-- A reading inside an implicit pair that leaves tokens over has taken a closing parenthesis of
the tokens for the implicit one, and the implicit one is left over. -/
theorem left_over_of_enclosed {taken : List Token}
    (read : Reader.formula heightLimit (.start (Token.enclose length tokens)) =
      .ok formula ⟨taken, token :: rest⟩) :
    ∃ inner close after, tokens = inner ++ close :: after ∧
      taken = close :: (inner.reverse ++ [opening]) ∧
      token :: rest = after ++ [Token.assumed length ")"] ∧
      Joins inner formula ∧ formula.height ≤ heightLimit ∧ close.kind = .closeParen := by
  obtain ⟨whole, same, rfl, derived, below⟩ := Reader.derives_of_formula read
  obtain ⟨inner, close, after, rfl, left, split, joins, closeKind⟩ := derived.closed_early same
  refine ⟨inner, close, after, split, ?_, left, joins, below, closeKind⟩
  simp only [List.reverse_cons, List.reverse_append, List.reverse_nil, List.nil_append,
    List.cons_append, List.append_nil]

/-- A closing parenthesis behind a formula whose outermost pair is missing leaves tokens over inside
the implicit pair. -/
theorem ofTokensEnclosed_of_close {inner after : List Token} {close : Token}
    (joins : Joins inner formula) (below : formula.height ≤ heightLimit)
    (closeKind : close.kind = .closeParen) :
    ofTokensEnclosed length (inner ++ close :: after) =
      .error ⟨close.position, .unmatchedClose⟩ := by
  have derived := joins.derives kind_opening closeKind
  have list : Token.enclose length (inner ++ close :: after) =
      (opening :: (inner ++ [close])) ++ (after ++ [Token.assumed length ")"]) := by
    simp only [enclose_eq, List.cons_append, List.append_assoc, List.nil_append]
  have result := Reader.formula_of_derives [] (after ++ [Token.assumed length ")"]) derived below
  obtain ⟨next, more, left⟩ : ∃ next more, after ++ [Token.assumed length ")"] = next :: more :=
    List.exists_cons_of_ne_nil (by simp)
  rw [left] at list result
  rw [ofTokensEnclosed, Cursor.start, list]
  simp only [result]
  simp

/-! ## Closing parentheses without a partner -/

/-- The reader of a formula never finds a closing parenthesis without a partner. -/
theorem cause_ne_unmatchedClose {levels : Nat} {all : List Token} {error : ParseError}
    {cursor : Cursor} (failed : Reader.formula levels (.start all) = .error error cursor) :
    error.cause ≠ .unmatchedClose := by
  have outcome := Reader.formula_outcome levels [] all
  rw [Cursor.start] at failed
  rw [failed] at outcome
  cases outcome with
  | tooDeep => simp
  | @ended _ _ _ due => cases due <;> simp [Due.missing]
  | @refused _ _ _ token due =>
    cases due with
    | formula =>
      rw [Due.refusal]
      split <;> simp
    | connective | close => simp [Due.refusal]

/-- What a closing parenthesis without a partner tells about a reading inside an implicit pair. -/
private theorem exists_of_enclosed {position : Int}
    (failed : ofTokensEnclosed length tokens = .error ⟨position, .unmatchedClose⟩) :
    ∃ inner close after formula, tokens = inner ++ close :: after ∧ close.kind = .closeParen ∧
      close.position = position ∧ Joins inner formula ∧ formula.height ≤ heightLimit := by
  rw [ofTokensEnclosed] at failed
  split at failed
  case h_1 result =>
    obtain rfl := Except.error.inj failed
    exact absurd rfl (cause_ne_unmatchedClose result)
  case h_2 => cases failed
  case h_3 result =>
    obtain ⟨inner, close, after, split, rfl, -, joins, below, closeKind⟩ :=
      left_over_of_enclosed result
    obtain ⟨rfl, -⟩ := ParseError.mk.inj (Except.error.inj failed)
    exact ⟨inner, close, after, _, split, closeKind, rfl, joins, below⟩

/-- A closing parenthesis has no partner exactly if it stands behind a formula whose outermost pair
is missing. -/
theorem ofTokens_eq_unmatched_iff {position : Int} :
    ofTokens length tokens = .error ⟨position, .unmatchedClose⟩ ↔
      ∃ inner close after formula, tokens = inner ++ close :: after ∧ close.kind = .closeParen ∧
        close.position = position ∧ Joins inner formula ∧ formula.height ≤ heightLimit := by
  constructor
  · intro failed
    rw [ofTokens] at failed
    split at failed
    · exact exists_of_enclosed failed
    · rw [ofTokensBare] at failed
      split at failed
      case h_1 result =>
        obtain rfl := Except.error.inj failed
        exact absurd rfl (cause_ne_unmatchedClose result)
      case h_2 => cases failed
      case h_3 => exact exists_of_enclosed failed
  · rintro ⟨inner, close, after, formula, rfl, closeKind, rfl, joins, below⟩
    rw [ofTokens_of_bare (ofTokensBare_of_joins joins below)]
    exact ofTokensEnclosed_of_close joins below closeKind

/-! ## Tokens that are no connective -/

/-- Behind an opening parenthesis and a formula that leaves a level unused, no place is too deep
unless a connective comes there. -/
theorem Reaches.false_of_not_connective {levels : Nat} {before behind : List Token}
    (reaches : Reaches levels before) (derived : Derives front formula)
    (below : formula.height < levels) (unfit : token.kind.isBinary = false)
    (same : opening :: (front ++ token :: rest) = before ++ behind) : False := by
  cases reaches with
  | start => exact absurd below (Nat.not_lt_zero _)
  | not kind =>
    obtain ⟨rfl, -⟩ := List.cons.inj same
    cases kind
  | left _ reaches =>
    -- The place lies inside the formula, which does not go that deep.
    obtain ⟨-, inside⟩ := List.cons.inj same
    obtain ⟨-, -, -, -, above⟩ := reaches.awaits.goes_on derived inside.symm
    omega
  | right _ left _ signKind =>
    -- The place lies behind the formula and a connective.
    rw [List.cons_append, List.append_assoc] at same
    obtain ⟨-, inside⟩ := List.cons.inj same
    obtain ⟨-, -, rfl, -⟩ := derived.unique_cons left inside
    simp [signKind, Kind.isBinary] at unfit

/-- Behind a formula that leaves a level unused, a token that is no connective of two operands is
refused as such. -/
theorem ofTokens_of_not_connective (length : Int) (derived : Derives front formula)
    (below : formula.height < heightLimit) (typed : token.implicit = false)
    (unfit : token.kind.isBinary = false) :
    ofTokens length (front ++ token :: rest) =
      .error ⟨token.position, .notConnective token.raw⟩ := by
  have awaits : Awaits 1 (opening :: front) .connective := .connective kind_opening derived
  have list : Token.enclose length (front ++ token :: rest) =
      (opening :: front) ++ token :: (rest ++ [Token.assumed length ")"]) := by
    simp only [enclose_eq, List.cons_append, List.append_assoc]
  have goes : Due.connective.endsAt (token :: (rest ++ [Token.assumed length ")"])) = false := by
    simp [Due.endsAt, typed]
  have bare : ofTokensBare length (front ++ token :: rest) = _ :=
    ofTokensBare_of_left_over derived (Nat.le_of_lt below)
  rw [ofTokens_of_bare bare, ofTokensEnclosed, Cursor.start, list]
  rcases Reader.formula_of_awaits heightLimit [] awaits goes unfit with
    ⟨cursor, result⟩ | ⟨before, behind, reaches, same, -⟩
  · simp only [result, Due.refusal]
  · exact (reaches.false_of_not_connective derived below unfit same).elim

/-! ## Texts -/

/-- What stands behind a complete formula. A text is refused for a closing parenthesis without a
partner exactly if the tokens in front of this parenthesis spell a formula inside one more pair,
and this formula is not higher than the limit. If some tokens spell a formula that is lower than the
limit, and the token behind them is no connective of two operands, the text is refused for this
token. What comes further behind does not matter. -/
theorem parse_surplus (text : String) :
    (∀ position, Reports text position "unmatched ')'" ↔
      ∃ inner close rest formula, Token.ofText text = inner ++ close :: rest ∧
        close.kind = .closeParen ∧ close.position = position ∧
        Derives (⟨-1, "(", .openParen, true⟩ ::
          (inner ++ [⟨text.length, ")", .closeParen, true⟩])) formula ∧
        formula.height ≤ 512) ∧
      ∀ front token rest formula, Token.ofText text = front ++ token :: rest →
        Derives front formula → formula.height ≤ 511 → token.kind.isBinary = false →
        Reports text token.position
          ("expected a binary connective, found '" ++ token.raw ++ "'") := by
  constructor
  · intro position
    have words : ParseError.Cause.unmatchedClose.description = "unmatched ')'" := rfl
    rw [← words, reports_iff]
    simp only [derives_pair_iff]
    by_cases empty : Token.ofText text = []
    · simp [parse_of_ofText_eq_nil empty, empty]
    · rw [parse_of_ofText_ne_nil empty, map_some_eq_error_iff]
      exact ofTokens_eq_unmatched_iff
  · intro front token rest formula split derived below unfit
    have mem : token ∈ Token.ofText text := by
      rw [split]
      exact List.mem_append_right _ List.mem_cons_self
    have typed := Token.implicit_of_mem_ofText mem
    have words : (ParseError.Cause.notConnective token.raw).description =
        "expected a binary connective, found '" ++ token.raw ++ "'" := rfl
    rw [← words, reports_iff, parse_of_ofText_ne_nil (List.ne_nil_of_mem mem),
      map_some_eq_error_iff, split]
    exact ofTokens_of_not_connective _ derived (Nat.lt_succ_of_le below) typed unfit

/-- Behind a negation comes a symbol, and behind a connective with its operands a parenthesis. In the
first text the tokens further behind have more connectives than parentheses, in the second fewer. -/
theorem parse_surplus_of_noise :
    (Token.ofText "! p q & & (" =
        [Token.typed 0 "!", Token.typed 2 "p"] ++ Token.typed 4 "q" ::
          [Token.typed 6 "&", Token.typed 8 "&", Token.typed 10 "("] ∧
      Derives [Token.typed 0 "!", Token.typed 2 "p"] (.not "!" (.symbol "p")) ∧
      Reports "! p q & & (" 4 "expected a binary connective, found 'q'") ∧
    Reports "p & q) ( (" 5 "unmatched ')'" := by
  have split : Token.ofText "! p q & & (" =
      [Token.typed 0 "!", Token.typed 2 "p"] ++ Token.typed 4 "q" ::
        [Token.typed 6 "&", Token.typed 8 "&", Token.typed 10 "("] := by decide +kernel
  have negation : Derives [Token.typed 0 "!", Token.typed 2 "p"] (.not "!" (.symbol "p")) :=
    .not (by decide +kernel) (.symbol (by decide +kernel))
  have pair : Joins [Token.typed 0 "p", Token.typed 2 "&", Token.typed 4 "q"]
      (.binary .and "&" (.symbol "p") (.symbol "q")) :=
    .intro (.symbol (by decide +kernel)) (by decide +kernel) (.symbol (by decide +kernel))
  obtain ⟨-, refuses⟩ := parse_surplus "! p q & & ("
  obtain ⟨unmatched, -⟩ := parse_surplus "p & q) ( ("
  refine ⟨⟨split, negation, ?_⟩, (unmatched 5).mpr ?_⟩
  · exact refuses _ _ _ _ split negation (by decide) (by decide +kernel)
  · exact ⟨_, Token.typed 5 ")", [Token.typed 7 "(", Token.typed 9 "("], _, by decide +kernel,
      rfl, rfl, derives_pair_iff.mpr pair, by decide⟩

end TruthTable.Formula
