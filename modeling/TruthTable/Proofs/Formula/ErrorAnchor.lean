import TruthTable.Proofs.Formula.ErrorPlace
import TruthTable.Proofs.Formula.SpellingInvariance
import TruthTable.Proofs.Token.Tiling

/-!
# The positions of errors

Every error has a position that a reader of the text can see: the start of one of its tokens, or the
end of its last one. The implicit pair of parentheses, which lies in front of the text and behind
it, never shows. For the start or the end of a token this is what comparing a text with itself says:
errors of two alike texts have positions that mean the same in both (`Formula.ofTokens_alike`).

Which of the two it is depends on the cause. Where the text ends too early the position is the end
of its last token (`Formula.position_of_missing`), also if an inner parenthesis has taken the
implicit closing one, or if the implicit one was all that was left. Where a token is out of place
the position is its start, and a cause that names a token names this one
(`Failure.exists_of_named`).

No two causes have the same description (`ParseError.Cause.description_injective`), so the words of
an error are enough to tell which case it is.
-/

namespace TruthTable

/-! ## The end of the text -/

namespace Token

variable {length : Int} {tokens : List Token}

/-- Whether a closing parenthesis that nobody typed stands at the end only. -/
def ClosesLast (tokens : List Token) : Prop :=
  ∀ before token after, tokens = before ++ token :: after → token.implicit = true →
    token.kind = .closeParen → after = []

theorem closesLast_of_typed (typed : ∀ token ∈ tokens, token.implicit = false) :
    ClosesLast tokens := by
  rintro before token after rfl assumed -
  rw [typed token (by simp)] at assumed
  cases assumed

theorem closesLast_enclose (typed : ∀ token ∈ tokens, token.implicit = false) :
    ClosesLast (enclose length tokens) := by
  intro before token after split assumed closes
  by_contra more
  -- A token that is not the last one is the implicit opening parenthesis or was typed.
  have front := congrArg List.dropLast split
  rw [enclose, ← List.cons_append, List.dropLast_concat,
    List.dropLast_append_of_ne_nil (List.cons_ne_nil token after),
    List.dropLast_cons_of_ne_nil more] at front
  have mem : token ∈ Token.assumed (-1) "(" :: tokens := by
    rw [front]
    simp
  rcases List.mem_cons.mp mem with rfl | inside
  · cases closes
  · rw [typed token inside] at assumed
    cases assumed

/-- A closing parenthesis stands in the text at its position. -/
theorem getElem?_of_closeParen {text : String} {token : Token} (mem : token ∈ ofText text)
    (closes : token.kind = .closeParen) : text.toList[token.position.toNat]? = some ')' := by
  obtain ⟨before, after, split, place⟩ := split_ofText mem
  have raw : token.raw = ")" := (sound_of_mem_ofText mem).raw_of_paren.2 closes
  rw [split, place, Int.toNat_natCast, List.getElem?_append_right (Nat.le_refl _), Nat.sub_self,
    raw]
  rfl

end Token

/-- Where the text is seen to end, the last typed token has been taken. -/
theorem Cursor.typedEnd_of_endsAt {before rest : List Token} {due : Due}
    (only : Token.ClosesLast (before ++ rest)) (ends : due.endsAt rest = true) :
    (Cursor.mk (before.reverse ++ []) rest).typedEnd = Token.lastStop (before ++ rest) := by
  cases rest with
  | nil => rw [List.append_nil, List.append_nil]; rfl
  | cons token rest =>
    have seen : due ≠ .close ∧ token.implicit = true ∧ token.kind = .closeParen := by
      simpa [Due.endsAt] using ends
    obtain ⟨-, assumed, closes⟩ := seen
    obtain rfl := only before token rest rfl assumed closes
    rw [Token.lastStop, typedEnd, typedEnd, List.reverse_append, List.reverse_singleton,
      List.singleton_append, List.find?_cons_of_neg (by simp [assumed]), List.append_nil]

/-- A reader that misses something at the end of the text stands behind the last typed token. -/
theorem Reader.position_of_missing {levels : Nat} {all : List Token} {error : ParseError}
    {cursor : Cursor} {due : Due} (only : Token.ClosesLast all)
    (failed : formula levels (.start all) = .error error cursor)
    (missing : error.cause = due.missing) : error.position = Token.lastStop all := by
  have outcome := formula_outcome levels [] all
  rw [Cursor.start] at failed
  rw [failed] at outcome
  cases outcome with
  | tooDeep => cases due <;> cases missing
  | ended _ ends => exact Cursor.typedEnd_of_endsAt only ends
  | refused => exact absurd missing (Due.refusal_ne_missing _ _ _)

namespace Formula

variable {length : Int} {tokens : List Token} {error : ParseError} {due : Due}

private theorem position_of_missing_enclosed (typed : ∀ token ∈ tokens, token.implicit = false)
    (failed : ofTokensEnclosed length tokens = .error error)
    (missing : error.cause = due.missing) : error.position = Token.lastStop tokens := by
  rw [ofTokensEnclosed] at failed
  split at failed
  case h_1 result =>
    obtain rfl := Except.error.inj failed
    have stop := Reader.position_of_missing (Token.closesLast_enclose typed) result missing
    exact stop.trans Token.lastStop_enclose
  case h_2 => cases failed
  case h_3 =>
    obtain rfl := Except.error.inj failed
    cases due <;> cases missing

/-- If something is missing at the end of the text, the error stands behind the last token. -/
theorem position_of_missing (typed : ∀ token ∈ tokens, token.implicit = false)
    (failed : ofTokens length tokens = .error error) (missing : error.cause = due.missing) :
    error.position = Token.lastStop tokens := by
  rw [ofTokens] at failed
  split at failed
  · exact position_of_missing_enclosed typed failed missing
  · rw [ofTokensBare] at failed
    split at failed
    case h_1 result =>
      obtain rfl := Except.error.inj failed
      exact Reader.position_of_missing (Token.closesLast_of_typed typed) result missing
    case h_2 => cases failed
    case h_3 => exact position_of_missing_enclosed typed failed missing

/-- An error stands at the start of a token or behind the last one. -/
theorem position_start_or_stop (typed : ∀ token ∈ tokens, token.implicit = false)
    (failed : ofTokens length tokens = .error error) :
    (∃ token ∈ tokens, error.position = token.position) ∨
      error.position = Token.lastStop tokens := by
  have alike : List.Forall₂ Token.Alike tokens tokens :=
    List.forall₂_same.mpr fun _ _ => ⟨rfl, fun _ => rfl⟩
  have reading := ofTokens_alike length length alike typed typed
  rw [failed] at reading
  cases reading with
  | failed place =>
    rcases place.start_or_stop with ⟨k, token, -, here, -, start, -⟩ | ⟨stop, -⟩
    · exact .inl ⟨token, List.mem_of_getElem? here, start⟩
    · exact .inr stop

/-! ## Tokens out of place -/

/-- The causes that name a token. -/
def naming (found : String) : List ParseError.Cause :=
  [.missingLeft found, .notConnective found, .notClose found]

/-- The causes that blame a closing parenthesis. -/
def blamingClose : List ParseError.Cause :=
  [.strayClose, .unmatchedClose]

theorem missing_not_mem_naming (due : Due) (found : String) : due.missing ∉ naming found := by
  cases due <;> simp [naming, Due.missing]

theorem missing_not_mem_blamingClose (due : Due) : due.missing ∉ blamingClose := by
  cases due <;> simp [blamingClose, Due.missing]

/-- A cause that names a token names the one it stands at. -/
theorem Failure.exists_of_named {found : String} (failure : Failure tokens error)
    (named : error.cause ∈ naming found) :
    ∃ token ∈ tokens, token.position = error.position ∧ token.raw = found := by
  cases failure with
  | tooDeep => simp [naming] at named
  | ended => exact absurd named (missing_not_mem_naming _ _)
  | @refused _ before after token due split _ _ =>
    refine ⟨token, by simp [split], rfl, ?_⟩
    cases due with
    | formula =>
      rw [Due.refusal] at named
      split at named
      · simp [naming] at named
      · simpa [naming] using named
    | connective | close => simpa [naming, Due.refusal] using named
  | unmatched => simp [naming] at named

/-- A cause that blames a closing parenthesis stands at one. -/
theorem Failure.exists_of_blamingClose (failure : Failure tokens error)
    (blamed : error.cause ∈ blamingClose) :
    ∃ token ∈ tokens, token.position = error.position ∧ token.kind = .closeParen := by
  cases failure with
  | tooDeep => simp [blamingClose] at blamed
  | ended => exact absurd blamed (missing_not_mem_blamingClose _)
  | @refused _ before after token due split _ _ =>
    refine ⟨token, by simp [split], rfl, ?_⟩
    cases due with
    | formula =>
      rw [Due.refusal] at blamed
      split at blamed
      · assumption
      · simp [blamingClose] at blamed
    | connective | close => simp [blamingClose, Due.refusal] at blamed
  | @unmatched before after close _ split _ closeKind =>
    exact ⟨close, by simp [split], rfl, closeKind⟩

/-! ## Texts -/

/-- The words for a token that is out of place, with the raw text of the token. -/
def namings (found : String) : List String :=
  ["'" ++ found ++ "' is missing its left operand",
    "expected a binary connective, found '" ++ found ++ "'",
    "expected ')', found '" ++ found ++ "'"]

/-- The words for a closing parenthesis that is out of place. -/
def closeBlames : List String :=
  ["unexpected ')', expected a formula", "unmatched ')'"]

/-- Where errors stand. An error has the position of a token of the text or stands behind the last
one, so it lies in the text. An error that says that the text ends too early stands behind the last
token, which is the end of the text without the blanks there. An error that names a token has the
position of exactly one token, and this is the raw text that it names. An error that blames a
closing parenthesis stands at one. -/
theorem parse_error_anchored (text : String) (error : ParseError)
    (failed : parse text = .error error) :
    ((∃ token ∈ Token.ofText text, error.position = token.position) ∨
        ∃ last, (Token.ofText text).getLast? = some last ∧ error.position = last.stop) ∧
      (0 ≤ error.position ∧ error.position ≤ text.length) ∧
      (error.cause.description ∈ endings →
        (∃ last, (Token.ofText text).getLast? = some last ∧ error.position = last.stop) ∧
          error.position = (Text.trimEnd text).length) ∧
      (∀ found, error.cause.description ∈ namings found →
        ∃ token, (∀ other, other ∈ Token.ofText text ∧ other.position = error.position ↔
          other = token) ∧ token.raw = found) ∧
      (error.cause.description ∈ closeBlames → text.toList[error.position.toNat]? = some ')') := by
  have nonempty : Token.ofText text ≠ [] := by
    intro empty
    rw [parse_of_ofText_eq_nil empty] at failed
    cases failed
  rw [parse_of_ofText_ne_nil nonempty, map_some_eq_error_iff] at failed
  have typed : ∀ token ∈ Token.ofText text, token.implicit = false :=
    fun _ => Token.implicit_of_mem_ofText
  have failure := failure_of_error typed failed
  have ends := List.getLast?_eq_some_getLast nonempty
  have lastStop := Token.lastStop_of_typed typed ends
  have place : (∃ token ∈ Token.ofText text, error.position = token.position) ∨
      ∃ last, (Token.ofText text).getLast? = some last ∧ error.position = last.stop := by
    refine (position_start_or_stop typed failed).imp_right fun stop => ?_
    exact ⟨_, ends, stop.trans lastStop⟩
  refine ⟨place, ?_, fun early => ?_, fun found named => ?_, fun blamed => ?_⟩
  · obtain ⟨token, mem, start⟩ | ⟨last, ends, stop⟩ := place
    · have bounds := Token.bounds_ofText mem
      omega
    · have bounds := Token.bounds_ofText (List.mem_of_getLast? ends)
      omega
  · obtain ⟨due, missing⟩ := exists_due_of_mem_endings early
    have stop := (position_of_missing typed failed missing).trans lastStop
    exact ⟨⟨_, ends, stop⟩, stop.trans (Token.stop_getLast?_ofText ends)⟩
  · have inCauses : error.cause ∈ naming found := ParseError.Cause.mem_of_description_mem named
    obtain ⟨token, mem, here, raw⟩ := failure.exists_of_named inCauses
    refine ⟨token, fun other => ⟨fun ⟨mem', here'⟩ => ?_, ?_⟩, raw⟩
    · exact Token.eq_of_position_eq mem mem' (here'.trans here.symm)
    · rintro rfl
      exact ⟨mem, here⟩
  · have inCauses : error.cause ∈ blamingClose := ParseError.Cause.mem_of_description_mem blamed
    obtain ⟨token, mem, here, closes⟩ := failure.exists_of_blamingClose inCauses
    rw [← here]
    exact Token.getElem?_of_closeParen mem closes

/-- An inner parenthesis takes the implicit closing one, with blanks behind; a second connective
stands where the implicit one is due; a typed parenthesis takes its place. -/
theorem parse_error_anchored_of_implicit :
    (parse "A & (B & C  " = .error ⟨10, .missingClose⟩ ∧
        (10 : Int) = (Text.trimEnd "A & (B & C  ").length) ∧
      (parse "A & B & C" = .error ⟨6, .notClose "&"⟩ ∧
        ∃ token, (∀ other, other ∈ Token.ofText "A & B & C" ∧ other.position = 6 ↔
          other = token) ∧ token.raw = "&") ∧
      parse "A -> B) C" = .error ⟨6, .unmatchedClose⟩ ∧ "A -> B) C".toList[6]? = some ')' := by
  have late : parse "A & (B & C  " = .error ⟨10, .missingClose⟩ := by decide +kernel
  have chain : parse "A & B & C" = .error ⟨6, .notClose "&"⟩ := by decide +kernel
  have closed : parse "A -> B) C" = .error ⟨6, .unmatchedClose⟩ := by decide +kernel
  obtain ⟨-, -, ends, -, -⟩ := parse_error_anchored _ _ late
  obtain ⟨-, -, -, names, -⟩ := parse_error_anchored _ _ chain
  obtain ⟨-, -, -, -, blames⟩ := parse_error_anchored _ _ closed
  exact ⟨⟨late, (ends (by decide +kernel)).2⟩, ⟨chain, names "&" (by decide +kernel)⟩, closed,
    blames (by decide +kernel)⟩

end Formula

end TruthTable
