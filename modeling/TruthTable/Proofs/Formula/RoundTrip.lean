import TruthTable.Proofs.Formula.AcceptedTexts
import TruthTable.Proofs.Formula.Printing

/-!
# Reading what was printed

A printed formula is read back exactly if it is well formed, and so it is without its outermost
pair of parentheses. In one direction the tokens of the printed text spell the formula, because
each word has the kind of its root (`derives_respell`). In the other direction nothing is read but
well spelled formulas of a height within the limit, so no other formula is read back from any text
at all.
-/

namespace TruthTable.Formula

/-- The formula with its roots spelled by `word`. -/
def respell (word : Formula → String) : Formula → Formula
  | .symbol name => .symbol (word (.symbol name))
  | .constant value => .constant value
  | .not spelling operand => .not (word (.not spelling operand)) (operand.respell word)
  | .binary op spelling left right =>
    .binary op (word (.binary op spelling left right)) (left.respell word) (right.respell word)

theorem respell_written (formula : Formula) : formula.respell written = formula := by
  induction formula with
  | symbol | constant => rfl
  | not spelling operand ih =>
    rw [respell, ih]
    rfl
  | binary op spelling left right ihLeft ihRight =>
    rw [respell, ihLeft, ihRight]
    rfl

variable {word : Formula → String} {formula : Formula} {tokens : List Token}

/-- Tokens with the lexemes of a formula spell it, if each word can be read as its root. -/
theorem derives_respell (kinds : ∀ token ∈ tokens, token.kind = Kind.ofText token.raw)
    (words : ∀ part ∈ formula.subformulas, part.SpelledBy (word part))
    (raws : tokens.map (·.raw) = formula.lexemes word) :
    Derives tokens (formula.respell word) := by
  induction formula generalizing tokens with
  | symbol name =>
    obtain ⟨token, rfl, rawToken⟩ := List.map_eq_singleton_iff.mp raws
    rw [respell, ← rawToken]
    refine .symbol ?_
    rw [kinds token List.mem_cons_self, rawToken]
    exact (words _ List.mem_cons_self).2
  | constant value =>
    obtain ⟨token, rfl, rawToken⟩ := List.map_eq_singleton_iff.mp raws
    refine .constant ?_
    rw [kinds token List.mem_cons_self, rawToken]
    exact (words _ List.mem_cons_self).2
  | not spelling operand ih =>
    obtain ⟨sign, rest, rfl, rawSign, rawRest⟩ := List.map_eq_cons_iff.mp raws
    rw [List.forall_mem_cons] at kinds
    rw [subformulas, List.forall_mem_cons] at words
    obtain ⟨kindSign, kindsRest⟩ := kinds
    obtain ⟨wordSign, wordsRest⟩ := words
    rw [respell, ← rawSign]
    refine .not ?_ (ih kindsRest wordsRest rawRest)
    rw [kindSign, rawSign]
    exact wordSign.2
  | binary op spelling left right ihLeft ihRight =>
    obtain ⟨first, rest, rfl, rawFirst, rawRest⟩ := List.map_eq_cons_iff.mp raws
    obtain ⟨before, behind, rfl, rawBefore, rawBehind⟩ := List.map_eq_append_iff.mp rawRest
    obtain ⟨sign, rest, rfl, rawSign, rawRest⟩ := List.map_eq_cons_iff.mp rawBehind
    obtain ⟨after, ending, rfl, rawAfter, rawEnding⟩ := List.map_eq_append_iff.mp rawRest
    obtain ⟨last, rfl, rawLast⟩ := List.map_eq_singleton_iff.mp rawEnding
    simp only [List.forall_mem_cons, List.forall_mem_append] at kinds
    rw [subformulas, List.forall_mem_append, List.forall_mem_cons] at words
    obtain ⟨kindFirst, kindsBefore, kindSign, kindsAfter, kindLast, -⟩ := kinds
    obtain ⟨wordsLeft, wordSign, wordsRight⟩ := words
    rw [respell, ← rawSign]
    refine .binary ?_ (ihLeft kindsBefore wordsLeft rawBefore) ?_
      (ihRight kindsAfter wordsRight rawAfter) ?_
    · rw [kindFirst, rawFirst]
      rfl
    · rw [kindSign, rawSign]
      exact wordSign.2
    · rw [kindLast, rawLast]
      rfl

/-- The tokens of a text that has the lexemes of a formula spell it. -/
theorem derives_of_raws {text : String} (wellSpelled : formula.WellSpelled)
    (raws : Lexeme.raws text = formula.lexemes written) : Derives (Token.ofText text) formula := by
  have derived := derives_respell (fun token => Token.kind_of_mem_ofText)
    (wellSpelled_iff.mp wellSpelled) ((Token.map_raw_ofText text).trans raws)
  rwa [respell_written] at derived

/-- So do the tokens of a text that lacks the outermost pair only, but for that pair. -/
theorem joins_of_raws {text : String} (wellSpelled : formula.WellSpelled)
    (raws : Lexeme.raws ("(" ++ text ++ ")") = formula.lexemes written) :
    Joins (Token.ofText text) formula := by
  have kinds : ∀ token ∈ Token.enclose 0 (Token.ofText text),
      token.kind = Kind.ofText token.raw := by
    intro token mem
    simp only [Token.enclose, List.mem_cons, List.mem_append, List.not_mem_nil, or_false] at mem
    rcases mem with rfl | inText | rfl
    · rfl
    · exact Token.kind_of_mem_ofText inText
    · rfl
  have rawTokens : (Token.enclose 0 (Token.ofText text)).map (·.raw) = formula.lexemes written := by
    rw [← raws, Lexeme.raws_enclose, ← Token.map_raw_ofText, Token.enclose, List.map_cons,
      List.map_append]
    rfl
  have derived := derives_respell kinds (wellSpelled_iff.mp wellSpelled) rawTokens
  rw [respell_written] at derived
  exact derives_enclose_iff.mp derived

theorem height_respell (word : Formula → String) (formula : Formula) :
    (formula.respell word).height = formula.height := by
  induction formula with
  | symbol | constant => rfl
  | not spelling operand ih => rw [respell, height, height, ih]
  | binary op spelling left right ihLeft ihRight =>
    rw [respell, height, height, ihLeft, ihRight]

/-- Spelled out by words that can be read as its roots, a formula is read as what they spell. -/
theorem parse_spelledOut (words : ∀ part ∈ formula.subformulas, part.SpelledBy (word part))
    (below : formula.height ≤ heightLimit) :
    parse (formula.spelledOut word) = .ok (some (formula.respell word)) := by
  have raws : (Token.ofText (formula.spelledOut word)).map (·.raw) = formula.lexemes word :=
    (Token.map_raw_ofText _).trans (raws_spelledOut fun part mem => (words part mem).1)
  have derived := derives_respell (fun token => Token.kind_of_mem_ofText) words raws
  rw [← height_respell word] at below
  exact parse_eq_some_iff.mpr ⟨.inl derived, below⟩

/-- Nothing is read but well formed formulas. -/
theorem wellFormed_of_parse {text : String} (read : parse text = .ok (some formula)) :
    formula.WellFormed := by
  obtain ⟨spelled, below⟩ := parse_eq_some_iff.mp read
  refine ⟨?_, below⟩
  have sound (token : Token) (mem : token ∈ Token.ofText text) : token.Sound :=
    Token.sound_of_mem_ofText mem
  rcases spelled with derived | joins
  · exact derived.wellSpelled sound
  · exact joins.wellSpelled sound

/-- What a formula prints is read as the formula exactly if it is well formed. Where it is a
connective of two operands, its text has a pair of parentheses around, and is read as the same
formula without them. -/
theorem parse_print (formula : Formula) :
    (parse (Worksheet.ofFormula formula).print = .ok (some formula) ↔ formula.WellFormed) ∧
      ∀ op spelling left right, formula = .binary op spelling left right → formula.WellFormed →
        ∃ inner, (Worksheet.ofFormula formula).print = "(" ++ inner ++ ")" ∧
          parse inner = .ok (some formula) := by
  have raws (wellSpelled : formula.WellSpelled) :
      Lexeme.raws (formula.spelledOut written) = formula.lexemes written :=
    raws_spelledOut fun part mem => (wellSpelled_iff.mp wellSpelled part mem).1
  rw [Worksheet.print_ofFormula]
  constructor
  · refine ⟨wellFormed_of_parse, fun ⟨wellSpelled, below⟩ => ?_⟩
    have derived := derives_of_raws wellSpelled (raws wellSpelled)
    exact parse_eq_some_iff.mpr ⟨.inl derived, below⟩
  · rintro op spelling left right rfl ⟨wellSpelled, below⟩
    have joins := joins_of_raws wellSpelled (raws wellSpelled)
    exact ⟨_, rfl, parse_eq_some_iff.mpr ⟨.inr joins, below⟩⟩

/-- Where the operands are negations, one token carries the sign of the one and another the closing
parentheses of the other. -/
theorem parse_print_of_negations :
    let formula : Formula :=
      .binary .implies "->" (.not "!" (.binary .and "&" (.symbol "A") (.constant true)))
        (.not "not" (.binary .or "|" (.symbol "B") (.not "~" (.symbol "A"))))
    formula.WellFormed ∧ parse (Worksheet.ofFormula formula).print = .ok (some formula) ∧
      ∃ inner, (Worksheet.ofFormula formula).print = "(" ++ inner ++ ")" ∧
        parse inner = .ok (some formula) := by
  intro formula
  have read : parse "! (A & TRUE) -> not (B | ~ A)" = .ok (some formula) := by decide +kernel
  have wellFormed : formula.WellFormed := wellFormed_of_parse read
  obtain ⟨whole, inside⟩ := parse_print formula
  exact ⟨wellFormed, whole.mpr wellFormed, inside _ _ _ _ rfl wellFormed⟩

end TruthTable.Formula
