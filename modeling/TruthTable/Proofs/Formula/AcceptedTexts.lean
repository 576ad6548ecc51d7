import TruthTable.Formula.Parser
import TruthTable.Proofs.Formula.ReaderOutcome
import TruthTable.Proofs.Token.Lexing

/-!
# The texts that are read

The tokens of a text are read as a formula exactly if they spell it, with or without its outermost
pair of parentheses, and it is not higher than the limit. Neither the count of parentheses nor the
second attempt changes that: tokens that spell a formula have as many opening parentheses as
connectives of two operands, tokens that lack the outermost pair have one fewer, so no tokens do
both and the count never leads the reader away from the one reading there is.

The bare reading, which never counts, is described first (`ofTokensBare_eq_ok_iff`), then the
reading that counts (`ofTokens_eq_ok_iff`). The right sides are the same.
-/

namespace TruthTable.Formula

variable {length : Int} {tokens : List Token} {formula : Formula}

/-- Inside an implicit pair, the tokens of a connective with its two operands are read. -/
theorem ofTokensEnclosed_eq_ok_iff :
    ofTokensEnclosed length tokens = .ok formula ↔
      Joins tokens formula ∧ formula.height ≤ heightLimit := by
  constructor
  · intro h
    rw [ofTokensEnclosed, Cursor.start] at h
    split at h
    case h_2 formula' taken read =>
      obtain rfl := Except.ok.inj h
      obtain ⟨whole, same, -, derived, below⟩ := Reader.derives_of_formula read
      rw [List.append_nil] at same
      rw [← same] at derived
      exact ⟨derives_enclose_iff.mp derived, below⟩
    all_goals cases h
  · rintro ⟨joins, below⟩
    have derived : Derives (Token.enclose length tokens) formula := derives_enclose_iff.mpr joins
    have result := Reader.formula_of_derives [] [] derived below
    rw [List.append_nil] at result
    simp only [ofTokensEnclosed, Cursor.start, result]

/-- Where a formula has tokens behind it, the reading inside an implicit pair decides. -/
theorem ofTokensBare_of_left_over {front rest : List Token} {next : Token}
    (derived : Derives front formula) (below : formula.height ≤ heightLimit) :
    ofTokensBare length (front ++ next :: rest) =
      ofTokensEnclosed length (front ++ next :: rest) := by
  have result := Reader.formula_of_derives [] (next :: rest) derived below
  simp only [ofTokensBare, Cursor.start, result]

/-- Where the outermost pair of a formula is missing, the reading inside an implicit pair decides,
whatever comes behind. -/
theorem ofTokensBare_of_joins {inner rest : List Token} (joins : Joins inner formula)
    (below : formula.height ≤ heightLimit) :
    ofTokensBare length (inner ++ rest) = ofTokensEnclosed length (inner ++ rest) := by
  -- The left operand is a formula with tokens behind it.
  obtain @⟨sign, before, after, op, left, right, leftDerived, -, -⟩ := joins
  rw [height] at below
  have leftBelow : left.height ≤ heightLimit := by omega
  rw [List.append_assoc, List.cons_append]
  exact ofTokensBare_of_left_over leftDerived leftBelow

/-- Without a count, tokens are read as the formula that they spell or that they spell inside an
implicit pair. -/
theorem ofTokensBare_eq_ok_iff :
    ofTokensBare length tokens = .ok formula ↔
      (Derives tokens formula ∨ Joins tokens formula) ∧ formula.height ≤ heightLimit := by
  constructor
  · intro h
    rw [ofTokensBare, Cursor.start] at h
    split at h
    case h_1 => cases h
    case h_2 formula' taken read =>
      obtain rfl := Except.ok.inj h
      obtain ⟨whole, same, -, derived, below⟩ := Reader.derives_of_formula read
      rw [List.append_nil] at same
      rw [← same] at derived
      exact ⟨.inl derived, below⟩
    case h_3 =>
      obtain ⟨joins, below⟩ := ofTokensEnclosed_eq_ok_iff.mp h
      exact ⟨.inr joins, below⟩
  · rintro ⟨derived | joins, below⟩
    · have result := Reader.formula_of_derives [] [] derived below
      rw [List.append_nil] at result
      simp only [ofTokensBare, Cursor.start, result]
    · have bare : ofTokensBare length (tokens ++ []) = _ := ofTokensBare_of_joins joins below
      rw [List.append_nil] at bare
      rw [bare]
      exact ofTokensEnclosed_eq_ok_iff.mpr ⟨joins, below⟩

/-- Tokens that spell a formula do not lack a parenthesis. -/
theorem lacksParen_of_derives (derived : Derives tokens formula) :
    Token.lacksParen tokens = false := by
  rw [Bool.eq_false_iff, ne_eq, Token.lacksParen_iff, derived.openings_eq]
  exact Nat.lt_irrefl _

/-- Tokens that spell a formula but for its outermost pair lack a parenthesis. -/
theorem lacksParen_of_joins (joins : Joins tokens formula) : Token.lacksParen tokens = true := by
  rw [Token.lacksParen_iff, ← joins.openings_add_one]
  exact Nat.lt_succ_self _

/-- With the count, tokens are read as the same formulas as without it. -/
theorem ofTokens_eq_ok_iff (length : Int) :
    ofTokens length tokens = .ok formula ↔
      (Derives tokens formula ∨ Joins tokens formula) ∧ formula.height ≤ heightLimit := by
  cases lacks : Token.lacksParen tokens with
  | false => rw [ofTokens, if_neg (by simp [lacks]), ofTokensBare_eq_ok_iff]
  | true =>
    rw [ofTokens, if_pos lacks, ofTokensEnclosed_eq_ok_iff]
    refine and_congr_left fun _ => ⟨.inr, ?_⟩
    rintro (derived | joins)
    · rw [lacksParen_of_derives derived] at lacks
      cases lacks
    · exact joins

/-- An error of the first reading, inside an implicit pair if a parenthesis is lacking, is the
error. -/
theorem ofTokens_of_error {error : ParseError} {cursor : Cursor}
    (failed : Reader.formula heightLimit (.start (Token.encloseIfLacking length tokens)) =
      .error error cursor) : ofTokens length tokens = .error error := by
  rw [Token.encloseIfLacking] at failed
  rw [ofTokens]
  split at failed
  case isTrue lacks =>
    rw [if_pos lacks]
    simp only [ofTokensEnclosed, failed]
  case isFalse enough =>
    rw [if_neg enough]
    simp only [ofTokensBare, failed]

/-- A pair is put around exactly where the tokens spell a formula but for its outermost pair. -/
theorem derives_encloseIfLacking (length : Int)
    (spelled : Derives tokens formula ∨ Joins tokens formula) :
    Derives (Token.encloseIfLacking length tokens) formula := by
  rw [Token.encloseIfLacking]
  rcases spelled with derived | joins
  · rwa [if_neg (by simp [lacksParen_of_derives derived])]
  · rw [if_pos (lacksParen_of_joins joins)]
    exact derives_enclose_iff.mpr joins

/-- Tokens that spell a formula that is too high are refused as such, at the first place that is
too deep. -/
theorem ofTokens_of_height_lt (length : Int)
    (spelled : Derives tokens formula ∨ Joins tokens formula)
    (above : heightLimit < formula.height) :
    ∃ before behind, Reaches heightLimit before ∧
      Token.encloseIfLacking length tokens = before ++ behind ∧
      ofTokens length tokens =
        .error ⟨(Cursor.mk before.reverse behind).nextPosition, .tooDeep⟩ := by
  have derived := derives_encloseIfLacking length spelled
  obtain ⟨before, behind, cursor, reaches, same, result⟩ :=
    Reader.formula_of_height_lt [] [] derived above
  rw [List.append_nil] at same
  rw [List.append_nil, List.append_nil] at result
  exact ⟨before, behind, reaches, same, ofTokens_of_error result⟩

/-! ## Texts -/

@[simp] theorem map_some_eq_error_iff {ε α : Type} {result : Except ε α} {error : ε} :
    result.map some = .error error ↔ result = .error error := by
  cases result <;> simp [Except.map]

@[simp] theorem map_some_eq_ok_iff {ε α : Type} {result : Except ε α} {found : Option α} :
    result.map some = .ok found ↔ ∃ value, result = .ok value ∧ some value = found := by
  cases result <;> simp [Except.map]

/-- A text without tokens is no formula. -/
theorem parse_of_ofText_eq_nil {text : String} (empty : Token.ofText text = []) :
    parse text = .ok none := by
  rw [parse, empty]

/-- A text with tokens is what its tokens are. -/
theorem parse_of_ofText_ne_nil {text : String} (nonempty : Token.ofText text ≠ []) :
    parse text = (ofTokens text.length (Token.ofText text)).map some := by
  obtain ⟨token, rest, tokens⟩ := List.exists_cons_of_ne_nil nonempty
  rw [parse, tokens]

/-- A text is read as the formulas that its tokens spell, with or without the outermost pair. -/
theorem parse_eq_some_iff {text : String} :
    parse text = .ok (some formula) ↔
      (Derives (Token.ofText text) formula ∨ Joins (Token.ofText text) formula) ∧
        formula.height ≤ heightLimit := by
  rw [← ofTokens_eq_ok_iff text.length]
  by_cases empty : Token.ofText text = []
  · rw [parse_of_ofText_eq_nil empty, empty, ofTokens_eq_ok_iff]
    constructor
    · intro read
      cases read
    · rintro ⟨derived | joins, -⟩
      · exact absurd rfl derived.ne_nil
      · exact absurd rfl joins.ne_nil
  · rw [parse_of_ofText_ne_nil empty]
    simp

/-- A text is read as no formula exactly if all of it is blank. -/
theorem parse_eq_none_iff {text : String} :
    parse text = .ok none ↔ text.toList.all Text.isBlank = true := by
  rw [← Token.ofText_eq_nil_iff]
  by_cases empty : Token.ofText text = []
  · simp [parse_of_ofText_eq_nil empty, empty]
  · simp [parse_of_ofText_ne_nil empty, empty]

/-- The texts that are read, and what they are read as. A text is read as no formula exactly if
all of it is blank. It is read as a formula exactly if it has tokens, the formula is not higher
than the limit, and the tokens spell the formula as they are or inside one more pair of
parentheses. -/
theorem parse_eq_ok_iff (text : String) :
    (parse text = .ok none ↔ text.toList.all Text.isBlank = true) ∧
      ∀ formula, parse text = .ok (some formula) ↔
        Token.ofText text ≠ [] ∧ formula.height ≤ heightLimit ∧
          (Derives (Token.ofText text) formula ∨
            Derives (⟨-1, "(", .openParen, true⟩ ::
              (Token.ofText text ++ [⟨text.length, ")", .closeParen, true⟩])) formula) := by
  refine ⟨parse_eq_none_iff, fun formula => ?_⟩
  rw [parse_eq_some_iff, derives_pair_iff]
  constructor
  · rintro ⟨spelled, below⟩
    exact ⟨spelled.elim (·.ne_nil) (·.ne_nil), below, spelled⟩
  · rintro ⟨-, below, spelled⟩
    exact ⟨spelled, below⟩

end TruthTable.Formula
