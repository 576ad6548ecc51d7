import TruthTable.Proofs.Formula.AcceptedTexts
import TruthTable.Proofs.Formula.ErrorWords

/-!
# The place of an error

An error stands where the text stops being the beginning of a formula. `Whole` is the language that
counts here: the tokens that spell a formula, with or without the outermost pair of parentheses and
at any height. `Begins` says that some tokens can be continued to that language.

The reader may run twice, with an implicit pair and without one. One parenthesis in front makes the
two runs comparable: tokens begin a formula whose outermost pair may be missing exactly if they
begin, and do not end, a formula behind an opening parenthesis (`begins_iff`). `Failure` tells what
each error says in these terms, whichever run it comes from (`failure_of_error`).
-/

namespace TruthTable.Formula

/-- Whether tokens spell a formula, where the outermost pair of parentheses may be missing. -/
def Whole (tokens : List Token) : Prop :=
  ∃ formula length, Derives tokens formula ∨
    Derives (⟨-1, "(", .openParen, true⟩ :: (tokens ++ [⟨length, ")", .closeParen, true⟩])) formula

/-- Whether tokens can be continued to a whole formula. -/
def Begins (tokens : List Token) : Prop :=
  ∃ more, Whole (tokens ++ more)

/-- The opening parenthesis that nobody typed. -/
def opening : Token := Token.assumed (-1) "("

theorem kind_opening : opening.kind = .openParen := rfl

variable {length : Int} {tokens : List Token}

theorem enclose_eq : Token.enclose length tokens =
    opening :: (tokens ++ [Token.assumed length ")"]) :=
  rfl

theorem whole_iff : Whole tokens ↔ ∃ formula, Derives tokens formula ∨ Joins tokens formula := by
  simp [Whole, derives_pair_iff]

theorem Begins.of_append {more : List Token} (h : Begins (tokens ++ more)) : Begins tokens := by
  obtain ⟨behind, whole⟩ := h
  exact ⟨more ++ behind, by rwa [← List.append_assoc]⟩

/-- What is cut off at the end of a list is cut off at the end of its last part. -/
private theorem eq_append_dropLast {α : Type} {all before behind : List α} {last : α}
    (same : all ++ [last] = before ++ behind) (nonempty : behind ≠ []) :
    all = before ++ behind.dropLast := by
  have cut := congrArg List.dropLast same
  rwa [List.dropLast_concat, List.dropLast_append_of_ne_nil nonempty] at cut

/-- A whole formula is, behind an opening parenthesis, an unfinished one. -/
theorem Whole.unfinished (whole : Whole tokens) :
    ∃ token more formula, Derives (opening :: (tokens ++ token :: more)) formula := by
  obtain ⟨formula, derived | joins⟩ := whole_iff.mp whole
  · exact (Awaits.connective kind_opening derived).viable
  · exact ⟨Token.assumed 0 ")", [], formula, joins.derives rfl rfl⟩

/-- Tokens begin a formula whose outermost pair may be missing exactly if they begin, and do not
end, a formula behind an opening parenthesis. -/
theorem begins_iff :
    Begins tokens ↔
      ∃ token more formula, Derives (opening :: (tokens ++ token :: more)) formula := by
  constructor
  · rintro ⟨more, whole⟩
    obtain ⟨token, behind, formula, derived⟩ := whole.unfinished
    rw [List.append_assoc] at derived
    cases more with
    | nil => exact ⟨token, behind, formula, derived⟩
    | cons next more => exact ⟨next, more ++ token :: behind, formula, derived⟩
  · rintro ⟨token, more, formula, derived⟩
    obtain ⟨inner, last, same, -, joins⟩ := derived.of_openParen rfl
    rw [eq_append_dropLast same.symm (List.cons_ne_nil token more)] at joins
    exact ⟨_, whole_iff.mpr ⟨formula, .inr joins⟩⟩

/-- What is unfinished behind an opening parenthesis can be continued. -/
theorem Awaits.begins {depth : Nat} {due : Due} (awaits : Awaits depth (opening :: tokens) due) :
    Begins tokens :=
  begins_iff.mpr awaits.viable

/-- What is unfinished behind an opening parenthesis cannot be continued with a token that is not
due. -/
theorem Awaits.not_begins {depth : Nat} {due : Due} {token : Token}
    (awaits : Awaits depth (opening :: tokens) due) (unfit : due.admits token.kind = false) :
    ¬ Begins (tokens ++ [token]) := by
  intro begins
  obtain ⟨next, more, formula, derived⟩ := begins_iff.mp begins
  rw [List.append_assoc] at derived
  rw [awaits.continues_iff.mp ⟨_, _, derived⟩] at unfit
  cases unfit

/-- What is whole inside a pair of parentheses cannot be continued with a closing one, which would
end the formula. -/
theorem Joins.not_begins {formula : Formula} {close : Token} (joins : Joins tokens formula)
    (closeKind : close.kind = .closeParen) : ¬ Begins (tokens ++ [close]) := by
  intro begins
  obtain ⟨next, more, formula', derived⟩ := begins_iff.mp begins
  have finished := joins.derives kind_opening closeKind
  rw [← List.cons_append] at derived
  cases finished.eq_nil_of_append derived

/-- If a formula is a proper beginning of tokens inside an implicit pair, then it has the implicit
opening parenthesis and a closing one of the tokens, and the implicit closing one is left over. -/
theorem Derives.closed_early {whole rest : List Token} {next : Token} {formula : Formula}
    (derived : Derives whole formula) (same : Token.enclose length tokens = whole ++ next :: rest) :
    ∃ inner close after, whole = opening :: (inner ++ [close]) ∧
      next :: rest = after ++ [Token.assumed length ")"] ∧ tokens = inner ++ close :: after ∧
      Joins inner formula ∧ close.kind = .closeParen := by
  obtain ⟨first, whole, rfl⟩ := List.exists_cons_of_ne_nil derived.ne_nil
  rw [enclose_eq, List.cons_append, List.cons.injEq] at same
  obtain ⟨rfl, inside⟩ := same
  obtain ⟨inner, close, rfl, closeKind, joins⟩ := derived.of_openParen rfl
  obtain ⟨after, last, ends⟩ := (List.eq_nil_or_concat' (next :: rest)).resolve_left (by simp)
  rw [ends, ← List.append_assoc] at inside
  obtain ⟨split, lasts⟩ := List.append_inj' inside rfl
  refine ⟨inner, close, after, rfl, ?_, ?_, joins, closeKind⟩
  · rw [ends, lasts]
  · rw [split, List.append_assoc, List.singleton_append]

/-! ## What an error tells -/

/-- `Failure tokens error` says what an error of reading the tokens tells about them. -/
inductive Failure (tokens : List Token) : ParseError → Prop
  /-- The nesting is too deep. -/
  | tooDeep {position : Int} : Failure tokens ⟨position, .tooDeep⟩
  /-- The tokens are unfinished. -/
  | ended {position : Int} {depth : Nat} {more : List Token} {due : Due} :
      Awaits depth (opening :: (tokens ++ more)) due → Failure tokens ⟨position, due.missing⟩
  /-- A token is not what is due. -/
  | refused {depth : Nat} {before after : List Token} {token : Token} {due : Due} :
      tokens = before ++ token :: after → Awaits depth (opening :: before) due →
      due.admits token.kind = false → Failure tokens ⟨token.position, due.refusal token⟩
  /-- A closing parenthesis comes behind a formula whose outermost pair is missing. -/
  | unmatched {before after : List Token} {close : Token} {formula : Formula} :
      tokens = before ++ close :: after → Joins before formula → close.kind = .closeParen →
      Failure tokens ⟨close.position, .unmatchedClose⟩

/-- Inside an implicit pair, nothing fails in front of the first parenthesis. -/
private theorem Awaits.behind_opening {depth : Nat} {before rest : List Token} {due : Due}
    (awaits : Awaits depth before due) (fails : due.Fails rest)
    (same : Token.enclose length tokens = before ++ rest) :
    ∃ inner, before = opening :: inner ∧ tokens ++ [Token.assumed length ")"] = inner ++ rest := by
  rw [enclose_eq] at same
  cases before with
  | nil =>
    cases awaits
    rw [List.nil_append] at same
    rw [← same, Due.fails_cons] at fails
    cases fails
  | cons first inner =>
    obtain ⟨rfl, inside⟩ := List.cons.inj same
    exact ⟨inner, rfl, inside⟩

/-- Errors of the reading inside an implicit pair. -/
theorem failure_of_enclosed {error : ParseError}
    (typed : ∀ token ∈ tokens, token.implicit = false)
    (h : ofTokensEnclosed length tokens = .error error) : Failure tokens error := by
  have outcome := Reader.formula_outcome heightLimit [] (Token.enclose length tokens)
  rw [ofTokensEnclosed, Cursor.start] at h
  generalize same : Token.enclose length tokens = all at outcome h
  generalize Reader.formula heightLimit ⟨[], all⟩ = result at outcome h
  cases outcome with
  | @read whole rest formula derived _ =>
    cases rest with
    | nil => cases h
    | cons next rest =>
      obtain rfl := Except.error.inj h
      obtain ⟨inner, close, after, rfl, -, split, joins, closeKind⟩ := derived.closed_early same
      simpa using Failure.unmatched split joins closeKind
  | tooDeep _ =>
    obtain rfl := Except.error.inj h
    exact .tooDeep
  | @ended depth _ rest due awaits ends =>
    obtain rfl := Except.error.inj h
    obtain ⟨before, rfl, inside⟩ := awaits.behind_opening (Due.fails_of_endsAt ends) same
    cases rest with
    | nil =>
      rw [List.append_nil] at inside
      exact .ended (inside ▸ awaits)
    | cons token rest =>
      -- The token is the implicit parenthesis, since the others were typed.
      have split := eq_append_dropLast inside (List.cons_ne_nil token rest)
      cases rest with
      | nil =>
        obtain rfl : tokens = before := by simpa using split
        have unfinished : Awaits depth (opening :: (tokens ++ [])) due := by
          rwa [List.append_nil]
        exact .ended unfinished
      | cons next rest =>
        have seen := typed token (by simp [split])
        simp [Due.endsAt, seen] at ends
  | @refused _ _ rest token due awaits goes unfit =>
    obtain rfl := Except.error.inj h
    obtain ⟨before, rfl, inside⟩ := awaits.behind_opening (Due.fails_cons.mpr unfit) same
    cases rest with
    | nil =>
      -- The implicit parenthesis is refused nowhere: it ends the text or closes a pair.
      obtain ⟨-, last⟩ := List.append_inj' inside rfl
      obtain ⟨rfl, -⟩ := List.cons.inj last
      cases due <;> cases goes
      cases unfit
    | cons next rest =>
      have split := eq_append_dropLast inside (List.cons_ne_nil token (next :: rest))
      exact .refused split awaits unfit

/-- Errors of reading tokens, whichever way they are read. -/
theorem failure_of_error {error : ParseError}
    (typed : ∀ token ∈ tokens, token.implicit = false)
    (h : ofTokens length tokens = .error error) : Failure tokens error := by
  rw [ofTokens] at h
  split at h
  · exact failure_of_enclosed typed h
  · have outcome := Reader.formula_outcome heightLimit [] tokens
    rw [ofTokensBare, Cursor.start] at h
    generalize Reader.formula heightLimit ⟨[], tokens⟩ = result at outcome h
    cases outcome with
    | @read whole rest formula _ _ =>
      cases rest with
      | nil => cases h
      | cons => exact failure_of_enclosed typed h
    | tooDeep _ =>
      obtain rfl := Except.error.inj h
      exact .tooDeep
    | @ended depth before _ due awaits ends =>
      obtain rfl := Except.error.inj h
      obtain rfl :=
        Due.eq_nil_of_endsAt (fun token mem => typed token (List.mem_append_right _ mem)) ends
      rw [List.append_nil]
      have unfinished : Awaits (depth + 1) (opening :: (before ++ [])) due := by
        rw [List.append_nil]
        exact .left kind_opening awaits
      exact .ended unfinished
    | refused awaits _ unfit =>
      obtain rfl := Except.error.inj h
      exact .refused rfl (.left rfl awaits) unfit

/-- Tokens that are whole have no error but for the height. -/
theorem not_whole_of_error {error : ParseError} (h : ofTokens length tokens = .error error)
    (shallow : error.cause ≠ .tooDeep) : ¬ Whole tokens := by
  intro whole
  obtain ⟨formula, spelled⟩ := whole_iff.mp whole
  by_cases below : formula.height ≤ heightLimit
  · have read := (ofTokens_eq_ok_iff length).mpr ⟨spelled, below⟩
    cases h.symm.trans read
  · obtain ⟨_, _, _, _, deep⟩ :=
      ofTokens_of_height_lt length spelled (Nat.lt_of_not_le below)
    rw [Except.error.inj (h.symm.trans deep)] at shallow
    exact shallow rfl

/-! ## The words of errors -/

/-- Whether a text is refused at a position and in these words. -/
def Reports (text : String) (position : Int) (words : String) : Prop :=
  ∃ error, parse text = .error error ∧ error.position = position ∧ error.cause.description = words

/-- The words of an error tell its cause. -/
theorem reports_iff {text : String} {position : Int} {cause : ParseError.Cause} :
    Reports text position cause.description ↔ parse text = .error ⟨position, cause⟩ := by
  constructor
  · rintro ⟨error, failed, rfl, words⟩
    rw [failed, ← ParseError.Cause.description_injective words]
  · intro failed
    exact ⟨_, failed, rfl, rfl⟩

/-- The words for a text that ends too early. -/
def endings : List String :=
  ["unexpected end of input, expected a formula",
    "unexpected end of input, expected a binary connective",
    "missing closing parenthesis"]

/-- What is worded as an end of the text is something missing. -/
theorem exists_due_of_mem_endings {cause : ParseError.Cause} (mem : cause.description ∈ endings) :
    ∃ due : Due, cause = due.missing := by
  have causes : cause ∈ [.missingFormula, .missingConnective, .missingClose] :=
    ParseError.Cause.mem_of_description_mem mem
  simp only [List.mem_cons, List.not_mem_nil, or_false] at causes
  rcases causes with rfl | rfl | rfl
  · exact ⟨.formula, rfl⟩
  · exact ⟨.connective, rfl⟩
  · exact ⟨.close, rfl⟩

/-- A refusal is not worded as an end of the text. -/
theorem description_refusal_not_mem (due : Due) (token : Token) :
    (due.refusal token).description ∉ endings := by
  intro mem
  obtain ⟨due', same⟩ := exists_due_of_mem_endings mem
  exact due.refusal_ne_missing due' token same

theorem description_missing_mem (due : Due) : due.missing.description ∈ endings := by
  cases due <;> decide +kernel

/-! ## Where errors stand -/

/-- A token that no beginning of a formula has behind the tokens in front of it stands at one
place. -/
private theorem exists_place {text : String} {before after : List Token} {token : Token}
    (split : Token.ofText text = before ++ token :: after) (begins : Begins before)
    (stops : ¬ Begins (before ++ [token])) :
    ∃ k, (∀ i, (Token.ofText text)[i]?.map (·.position) = some token.position ↔ i = k) ∧
      Begins ((Token.ofText text).take k) ∧ ¬ Begins ((Token.ofText text).take (k + 1)) := by
  refine ⟨before.length, fun i => Token.position_getElem?_iff split, ?_, ?_⟩
  · rwa [split, List.take_left]
  · have front : (Token.ofText text).take (before.length + 1) = before ++ [token] := by
      rw [split, List.take_append, List.take_of_length_le (Nat.le_succ _),
        Nat.add_sub_cancel_left]
      rfl
    rwa [front]

/-- An error that is not about the height stands where the text stops being the beginning of a
formula. If it says that the text ends too early, all tokens are the beginning of a formula and not
yet one. Otherwise it has the position of exactly one token, the tokens in front of this one can be
continued to a formula, and together with it they cannot. -/
theorem parse_error_place (text : String) (error : ParseError) (failed : parse text = .error error)
    (shallow : error.cause.description ≠ "formula is nested deeper than 512 levels") :
    (error.cause.description ∈ endings →
      (∃ more, more ≠ [] ∧ Whole (Token.ofText text ++ more)) ∧ ¬ Whole (Token.ofText text)) ∧
    (error.cause.description ∉ endings →
      ∃ k, (∀ i, (Token.ofText text)[i]?.map (·.position) = some error.position ↔ i = k) ∧
        Begins ((Token.ofText text).take k) ∧ ¬ Begins ((Token.ofText text).take (k + 1))) := by
  have notDeep : error.cause ≠ .tooDeep := by
    intro deep
    rw [deep] at shallow
    exact shallow (by decide +kernel)
  have nonempty : Token.ofText text ≠ [] := by
    intro empty
    rw [parse_of_ofText_eq_nil empty] at failed
    cases failed
  rw [parse_of_ofText_ne_nil nonempty, map_some_eq_error_iff] at failed
  have typed (token : Token) (mem : token ∈ Token.ofText text) : token.implicit = false :=
    Token.implicit_of_mem_ofText mem
  have unfinished := not_whole_of_error failed notDeep
  cases failure_of_error typed failed with
  | tooDeep => exact absurd rfl notDeep
  | ended awaits =>
    refine ⟨fun _ => ⟨?_, unfinished⟩, fun late => absurd (description_missing_mem _) late⟩
    obtain ⟨more, whole⟩ := Begins.of_append awaits.begins
    refine ⟨more, ?_, whole⟩
    rintro rfl
    exact unfinished (by rwa [List.append_nil] at whole)
  | refused split awaits unfit =>
    exact ⟨fun early => absurd early (description_refusal_not_mem _ _),
      fun _ => exists_place split awaits.begins (awaits.not_begins unfit)⟩
  | unmatched split joins closeKind =>
    have worded : ParseError.Cause.unmatchedClose.description ∉ endings := by decide +kernel
    refine ⟨fun early => absurd early worded, fun _ => ?_⟩
    have whole : Whole _ := whole_iff.mpr ⟨_, .inr joins⟩
    exact exists_place split ⟨[], by rwa [List.append_nil]⟩ (joins.not_begins closeKind)

/-- The second connective of a chain cannot be continued. -/
theorem parse_error_place_of_chain :
    parse "A & B & C" = .error ⟨6, .notClose "&"⟩ ∧
      ∃ k, (∀ i, (Token.ofText "A & B & C")[i]?.map (·.position) = some 6 ↔ i = k) ∧
        Begins ((Token.ofText "A & B & C").take k) ∧
        ¬ Begins ((Token.ofText "A & B & C").take (k + 1)) := by
  have failed : parse "A & B & C" = .error ⟨6, .notClose "&"⟩ := by decide +kernel
  have place := parse_error_place "A & B & C" ⟨6, .notClose "&"⟩ failed (by decide +kernel)
  exact ⟨failed, place.2 (by decide +kernel)⟩

end TruthTable.Formula
