import TruthTable.Proofs.Formula.Agreement
import TruthTable.Proofs.Formula.AcceptedTexts
import TruthTable.Proofs.Worksheet.Freshness
import TruthTable.Proofs.Worksheet.RowCells

/-!
# Spelling and spacing do not matter

Two texts whose tokens are alike are read alike. The count of parentheses looks at kinds only, so
both texts are put inside an implicit pair or neither is; the reader ends alike in both; and if
tokens are left, as many are left in both. Blanks and the lengths of spellings move the tokens, and
errors move with them (`ofTokens_alike`).

Formulas that differ in their spellings only have the same symbols and the same rows
(`row_eq_of_unspelled_eq`).
-/

namespace TruthTable

namespace Token

variable {length length' : Int} {tokens tokens' : List Token}

/-- Typed token lists that are alike are parallel from the start. -/
theorem parallel_of_alike (alike : List.Forall₂ Alike tokens tokens')
    (typed : ∀ token ∈ tokens, token.implicit = false)
    (typed' : ∀ token ∈ tokens', token.implicit = false) : Parallel 0 tokens tokens' where
  alike := by
    rw [List.forall₂_iff_get] at alike ⊢
    refine ⟨alike.1, fun k inside inside' => ⟨alike.2 k inside inside', ?_⟩⟩
    rw [typed _ (List.get_mem ..), typed' _ (List.get_mem ..)]
  closing := by
    intro k token _ here assumed
    rw [typed token (List.mem_of_getElem? here)] at assumed
    cases assumed

/-- Behind the implicit opening parenthesis come the tokens and the closing one. -/
theorem getElem?_enclose_succ {k : Nat} {token : Token}
    (here : (enclose length tokens)[k + 1]? = some token) :
    tokens[k]? = some token ∨ k = tokens.length ∧ token = assumed length ")" := by
  rw [enclose, List.getElem?_cons_succ, List.getElem?_append] at here
  split at here
  · exact .inl here
  · obtain ⟨inside, rfl⟩ := List.getElem?_eq_some_iff.mp here
    rw [List.length_singleton] at inside
    exact .inr ⟨by omega, List.getElem_singleton _⟩

theorem getElem?_enclose {k : Nat} {token : Token} (here : tokens[k]? = some token) :
    (enclose length tokens)[k + 1]? = some token := by
  have inside := (List.getElem?_eq_some_iff.mp here).1
  rw [enclose, List.getElem?_cons_succ, List.getElem?_append_left inside, here]

/-- Inside an implicit pair they are parallel from the first token of their own on. -/
theorem Parallel.enclose (length length' : Int) (parallel : Parallel 0 tokens tokens')
    (typed : ∀ token ∈ tokens, token.implicit = false) :
    Parallel 1 (enclose length tokens) (Token.enclose length' tokens') where
  alike := by
    refine .cons ⟨⟨rfl, fun _ => rfl⟩, rfl⟩ (List.rel_append parallel.alike ?_)
    exact .cons ⟨⟨rfl, fun _ => rfl⟩, rfl⟩ .nil
  closing := by
    intro k token started here assumed
    obtain ⟨k, rfl⟩ := Nat.exists_eq_add_of_le' started
    rcases getElem?_enclose_succ here with inside | ⟨rfl, rfl⟩
    · rw [typed token (List.mem_of_getElem? inside)] at assumed
      cases assumed
    · exact ⟨rfl, by simp [Token.enclose]⟩

theorem lastStop_enclose : lastStop (enclose length tokens) = lastStop tokens := by
  have reversed : (enclose length tokens).reverse =
      assumed length ")" :: (tokens.reverse ++ [assumed (-1) "("]) := by
    simp [enclose]
  rw [lastStop, lastStop, Cursor.typedEnd, Cursor.typedEnd, reversed,
    List.find?_cons_of_neg (by simp [assumed]), List.find?_append]
  cases tokens.reverse.find? (!·.implicit) <;> rfl

/-- Places inside an implicit pair are places of the tokens in it. -/
theorem SamePlace.of_enclose {position position' : Int}
    (sameLength : tokens.length = tokens'.length)
    (place : SamePlace (enclose length tokens) (enclose length' tokens') position position') :
    SamePlace tokens tokens' position position' := by
  cases place with
  | @start k token token' here here' typed =>
    cases k with
    | zero =>
      obtain rfl := Option.some.inj here
      cases typed
    | succ k =>
      rcases getElem?_enclose_succ here with inside | ⟨-, rfl⟩
      · have within := (List.getElem?_eq_some_iff.mp inside).1
        rcases getElem?_enclose_succ here' with inside' | ⟨rfl, -⟩
        · exact .start inside inside' typed
        · exact absurd sameLength (Nat.ne_of_lt' within)
      · cases typed
  | stop =>
    rw [lastStop_enclose, lastStop_enclose]
    exact .stop

theorem SamePlace.start_or_stop {position position' : Int}
    (place : SamePlace tokens tokens' position position') :
    (∃ (k : Nat) (token token' : Token), tokens[k]? = some token ∧ tokens'[k]? = some token' ∧
      position = token.position ∧ position' = token'.position) ∨
    position = lastStop tokens ∧ position' = lastStop tokens' := by
  cases place with
  | start here here' _ => exact .inl ⟨_, _, _, here, here', rfl, rfl⟩
  | stop => exact .inr ⟨rfl, rfl⟩

/-- The last of some typed tokens is the last typed token. -/
theorem lastStop_of_typed {last : Token} (typed : ∀ token ∈ tokens, token.implicit = false)
    (ends : tokens.getLast? = some last) : lastStop tokens = last.stop := by
  obtain ⟨front, rfl⟩ := List.getLast?_eq_some_iff.mp ends
  rw [lastStop, Cursor.typedEnd, List.reverse_append, List.reverse_singleton,
    List.singleton_append, List.find?_cons_of_pos (by simp [typed last])]

end Token

namespace Formula

open Token (Parallel SamePlace)

variable {length length' : Int} {tokens tokens' : List Token}

/-! ## Readings of tokens -/

/-- `SameReading tokens tokens' reading reading'` says that two token lists were read as formulas
that differ in their spellings only, or that both failed at the same place. -/
inductive SameReading (tokens tokens' : List Token) :
    Except ParseError Formula → Except ParseError Formula → Prop
  | read {formula formula' : Formula} :
      formula.unspelled = formula'.unspelled →
      SameReading tokens tokens' (.ok formula) (.ok formula')
  | failed {error error' : ParseError} :
      SamePlace tokens tokens' error.position error'.position →
      SameReading tokens tokens' (.error error) (.error error')

/-- Behind the implicit opening parenthesis a pair is read. -/
theorem formula_enclose (length : Int) (tokens : List Token) :
    Reader.formula heightLimit (.start (Token.enclose length tokens)) =
      Reader.pair (Reader.formula 511) (.behind (Token.enclose length tokens) 1) := by
  rfl

/-- If a formula was read inside an implicit pair and tokens are left, the last token that was taken
is one of the tokens in the pair. -/
theorem taken_of_read_enclose {formula : Formula} {k : Nat}
    (read : Reader.formula heightLimit (.start (Token.enclose length tokens)) =
      .ok formula (.behind (Token.enclose length tokens) k))
    (left : (Cursor.behind (Token.enclose length tokens) k).rest ≠ []) :
    ∃ j token, k = j + 2 ∧ tokens[j]? = some token := by
  obtain ⟨whole, -, taken, derived, -⟩ := Reader.derives_of_formula read
  have front : (Token.enclose length tokens).take k = whole := by
    rw [List.append_nil] at taken
    exact List.reverse_injective taken
  have inside : k < tokens.length + 2 := by
    have rest := List.length_pos_iff.mpr left
    simp only [Cursor.behind, Token.enclose, List.length_drop, List.length_cons,
      List.length_append, List.length_nil] at rest
    omega
  rcases k with _ | _ | j
  · exact absurd front.symm derived.ne_nil
  · -- A parenthesis alone is no formula.
    rw [← front] at derived
    obtain ⟨inner, last, empty, -⟩ := derived.of_openParen rfl
    simp at empty
  · exact ⟨j, tokens[j], rfl, List.getElem?_eq_getElem (by omega)⟩

theorem ofTokensEnclosed_alike (parallel : Parallel 0 tokens tokens')
    (typed : ∀ token ∈ tokens, token.implicit = false) :
    SameReading tokens tokens' (ofTokensEnclosed length tokens)
      (ofTokensEnclosed length' tokens') := by
  have enclosed := parallel.enclose length length' typed
  have ends := (Reader.agree_formula enclosed 511).pair enclosed 1 (Nat.le_refl 1)
  rw [← formula_enclose, ← formula_enclose] at ends
  rw [ofTokensEnclosed, ofTokensEnclosed]
  generalize result : Reader.formula heightLimit (.start (Token.enclose length tokens)) = end₁
    at ends
  generalize result' : Reader.formula heightLimit (.start (Token.enclose length' tokens')) = end₂
    at ends
  cases ends with
  | error place => exact .failed (place.of_enclose parallel.alike.length_eq)
  | @ok k formula formula' later same =>
    cases next : (Token.enclose length tokens)[k]? with
    | none =>
      have next' := enclosed.getElem?_eq_none next
      rw [Cursor.behind_of_getElem?_eq_none next, Cursor.behind_of_getElem?_eq_none next']
      exact .read same
    | some token =>
      -- A closing parenthesis of the text was taken for the implicit one, the same in both texts.
      obtain ⟨token', next', -⟩ := enclosed.getElem? next
      obtain ⟨taken, rest, now, -⟩ := Cursor.behind_succ next
      obtain ⟨taken', rest', now', -⟩ := Cursor.behind_succ next'
      obtain ⟨j, last, rfl, here⟩ := taken_of_read_enclose result (by simp [now])
      obtain ⟨last', here', -⟩ := parallel.getElem? here
      obtain ⟨before, _, -, reached⟩ := Cursor.behind_succ (Token.getElem?_enclose here)
      obtain ⟨before', _, -, reached'⟩ := Cursor.behind_succ (Token.getElem?_enclose here')
      rw [now] at reached ⊢
      rw [now'] at reached' ⊢
      obtain ⟨rfl, -⟩ := Cursor.mk.inj reached
      obtain ⟨rfl, -⟩ := Cursor.mk.inj reached'
      exact .failed (.start here here' (typed last (List.mem_of_getElem? here)))

theorem ofTokensBare_alike (parallel : Parallel 0 tokens tokens')
    (typed : ∀ token ∈ tokens, token.implicit = false) :
    SameReading tokens tokens' (ofTokensBare length tokens) (ofTokensBare length' tokens') := by
  have ends := Reader.agree_formula parallel heightLimit 0 (Nat.le_refl 0)
  rw [Cursor.behind_zero, Cursor.behind_zero] at ends
  rw [ofTokensBare, ofTokensBare]
  generalize Reader.formula heightLimit (.start tokens) = end₁ at ends
  generalize Reader.formula heightLimit (.start tokens') = end₂ at ends
  cases ends with
  | error place => exact .failed place
  | @ok k formula formula' _ same =>
    cases next : tokens[k]? with
    | none =>
      have next' := parallel.getElem?_eq_none next
      rw [Cursor.behind_of_getElem?_eq_none next, Cursor.behind_of_getElem?_eq_none next']
      exact .read same
    | some token =>
      obtain ⟨token', next', -⟩ := parallel.getElem? next
      obtain ⟨taken, rest, now, -⟩ := Cursor.behind_succ next
      obtain ⟨taken', rest', now', -⟩ := Cursor.behind_succ next'
      rw [now, now']
      exact ofTokensEnclosed_alike parallel typed

/-- Both lists lack a parenthesis or neither does. -/
theorem lacksParen_alike (alike : List.Forall₂ Token.Alike tokens tokens') :
    Token.lacksParen tokens = Token.lacksParen tokens' := by
  have kinds : tokens.map (·.kind) = tokens'.map (·.kind) := by
    induction alike with
    | nil => rfl
    | cons here _ ih => rw [List.map_cons, List.map_cons, here.1, ih]
  have counts (p : Kind → Bool) :
      tokens.countP (fun token => p token.kind) = tokens'.countP fun token => p token.kind := by
    have same := congrArg (List.countP p) kinds
    rwa [List.countP_map, List.countP_map] at same
  have openings : Token.openings tokens = Token.openings tokens' := counts (· == .openParen)
  have binaries : Token.binaries tokens = Token.binaries tokens' := counts Kind.isBinary
  rw [Token.lacksParen, openings, binaries, Token.lacksParen]

/-- Alike tokens of texts are read alike. -/
theorem ofTokens_alike (length length' : Int) (alike : List.Forall₂ Token.Alike tokens tokens')
    (typed : ∀ token ∈ tokens, token.implicit = false)
    (typed' : ∀ token ∈ tokens', token.implicit = false) :
    SameReading tokens tokens' (ofTokens length tokens) (ofTokens length' tokens') := by
  have parallel := Token.parallel_of_alike alike typed typed'
  rw [ofTokens, ofTokens, lacksParen_alike alike]
  split
  · exact ofTokensEnclosed_alike parallel typed
  · exact ofTokensBare_alike parallel typed

/-! ## Formulas without their spellings -/

variable {formula formula' : Formula}

theorem subformulas_mapSpellings (f : String → String) (formula : Formula) :
    (formula.mapSpellings f).subformulas = formula.subformulas.map (mapSpellings f) := by
  induction formula with
  | symbol | constant => rfl
  | not spelling operand ih => rw [mapSpellings, subformulas, ih, subformulas, List.map_cons]; rfl
  | binary op spelling left right ihLeft ihRight =>
    rw [mapSpellings, subformulas, ihLeft, ihRight, subformulas, List.map_append, List.map_cons]
    rfl

theorem symbols_eq_of_unspelled_eq (same : formula.unspelled = formula'.unspelled) :
    formula.symbols = formula'.symbols := by
  rw [← symbols_mapSpellings (fun _ => "") formula, ← symbols_mapSpellings (fun _ => "") formula']
  exact congrArg symbols same

/-- The values of the subformulas in reading order are those of the formula without spellings. -/
theorem map_evaluate_unspelled (valuation : Valuation) (formula : Formula) :
    formula.unspelled.subformulas.map (evaluate valuation) =
      formula.subformulas.map (evaluate valuation) := by
  rw [unspelled, subformulas_mapSpellings, List.map_map]
  exact List.map_congr_left fun part _ => evaluate_mapSpellings _ part valuation

/-- Formulas that differ in their spellings only have the same rows. -/
theorem row_eq_of_unspelled_eq (same : formula.unspelled = formula'.unspelled)
    (truth : Vector Bool formula.arena.size) (truth' : Vector Bool formula'.arena.size)
    (options : Options) (row : UInt64) :
    ((Worksheet.ofTruth formula truth).row options row).1 =
      ((Worksheet.ofTruth formula' truth').row options row).1 := by
  have values (valuation : Valuation) :
      formula.subformulas.map (fun part => options.display (part.evaluate valuation)) =
        formula'.subformulas.map fun part => options.display (part.evaluate valuation) := by
    have := map_evaluate_unspelled valuation formula
    rw [same, map_evaluate_unspelled] at this
    have shown := congrArg (List.map options.display) this.symm
    rwa [List.map_map, List.map_map] at shown
  refine (Worksheet.row_fst_ofFormula formula truth options row).trans ?_
  rw [symbols_eq_of_unspelled_eq same, values]
  exact (Worksheet.row_fst_ofFormula formula' truth' options row).symm

/-! ## Texts -/

/-- Texts with alike tokens are read alike. Either both are blank. Or both are read, as formulas
that differ in their spellings only, and then these have the same symbols and the same rows, for
any options and whatever was evaluated before. Or both are refused, at the start of the tokens
with the same number, or behind the last token of each. -/
theorem parse_of_alike (text text' : String)
    (alike : List.Forall₂ Token.Alike (Token.ofText text) (Token.ofText text')) :
    (parse text = .ok none ∧ parse text' = .ok none) ∨
    (∃ formula formula', parse text = .ok (some formula) ∧ parse text' = .ok (some formula') ∧
      formula.unspelled = formula'.unspelled ∧ formula.symbols = formula'.symbols ∧
      ∀ truth truth' options row, ((Worksheet.ofTruth formula truth).row options row).1 =
        ((Worksheet.ofTruth formula' truth').row options row).1) ∨
    ∃ error error', parse text = .error error ∧ parse text' = .error error' ∧
      ((∃ (k : Nat) (token token' : Token), (Token.ofText text)[k]? = some token ∧
          (Token.ofText text')[k]? = some token' ∧ error.position = token.position ∧
          error'.position = token'.position) ∨
        ∃ last last', (Token.ofText text).getLast? = some last ∧
          (Token.ofText text').getLast? = some last' ∧ error.position = last.stop ∧
          error'.position = last'.stop) := by
  have typed : ∀ token ∈ Token.ofText text, token.implicit = false :=
    fun _ => Token.implicit_of_mem_ofText
  have typed' : ∀ token ∈ Token.ofText text', token.implicit = false :=
    fun _ => Token.implicit_of_mem_ofText
  by_cases empty : Token.ofText text = []
  · rw [empty, List.forall₂_nil_left_iff] at alike
    exact .inl ⟨parse_of_ofText_eq_nil empty, parse_of_ofText_eq_nil alike⟩
  · have nonempty' : Token.ofText text' ≠ [] := by
      intro empty'
      rw [empty', List.forall₂_nil_right_iff] at alike
      exact empty alike
    have reading := ofTokens_alike text.length text'.length alike typed typed'
    rw [parse_of_ofText_ne_nil empty, parse_of_ofText_ne_nil nonempty']
    generalize ofTokens text.length (Token.ofText text) = result at reading
    generalize ofTokens text'.length (Token.ofText text') = result' at reading
    cases reading with
    | read same =>
      exact .inr (.inl ⟨_, _, rfl, rfl, same, symbols_eq_of_unspelled_eq same,
        row_eq_of_unspelled_eq same⟩)
    | failed place =>
      refine .inr (.inr ⟨_, _, rfl, rfl, ?_⟩)
      rcases place.start_or_stop with ⟨k, token, token', here, here', start, start'⟩ | ⟨stop, stop'⟩
      · exact .inl ⟨k, token, token', here, here', start, start'⟩
      · refine .inr ⟨_, _, List.getLast?_eq_some_getLast empty,
          List.getLast?_eq_some_getLast nonempty', ?_, ?_⟩
        · rw [stop, Token.lastStop_of_typed typed (List.getLast?_eq_some_getLast empty)]
        · rw [stop', Token.lastStop_of_typed typed' (List.getLast?_eq_some_getLast nonempty')]

/-- The outermost pair is missing, blanks differ, and so do the spellings of all connectives. -/
theorem parse_of_alike_of_respelled :
    let text := "(p -> q) & ! p"
    let text' := " ( p IMPLIES q )\\land  not p"
    List.Forall₂ Token.Alike (Token.ofText text) (Token.ofText text') ∧
      ∃ formula formula', parse text = .ok (some formula) ∧ parse text' = .ok (some formula') ∧
        formula.unspelled = formula'.unspelled ∧ formula.symbols = formula'.symbols ∧
        ∀ truth truth' options row, ((Worksheet.ofTruth formula truth).row options row).1 =
          ((Worksheet.ofTruth formula' truth').row options row).1 := by
  intro text text'
  have all : ∀ pair ∈ (Token.ofText text).zip (Token.ofText text'), pair.1.Alike pair.2 := by
    decide +kernel
  have alike : List.Forall₂ Token.Alike (Token.ofText text) (Token.ofText text') :=
    List.forall₂_iff_zip.mpr ⟨by decide +kernel, fun mem => all _ mem⟩
  have read : parse text = .ok (some (.binary .and "&"
      (.binary .implies "->" (.symbol "p") (.symbol "q")) (.not "!" (.symbol "p")))) := by
    decide +kernel
  refine ⟨alike, ?_⟩
  rcases parse_of_alike text text' alike with ⟨blank, -⟩ | formulas | ⟨error, -, failed, -⟩
  · cases read.symm.trans blank
  · exact formulas
  · cases read.symm.trans failed

end Formula

end TruthTable
