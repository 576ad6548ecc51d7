import TruthTable.Proofs.Formula.Derivation
import TruthTable.Proofs.Token.Lexing
import TruthTable.Worksheet.Table

/-!
# The words of a formula

A tree is well spelled if each of its nodes can be read from its own text. For every node this is
one condition: the text is a word, and the kind of that word is the kind of the node
(`wellSpelled_iff`). Truth constants meet it always. A text that has the kind of a connective is a
word anyway, since the table has only words.

What tokens of a text spell is well spelled (`Derives.wellSpelled`): the kind of a typed token is
the kind of its raw text.
-/

namespace TruthTable

open Lexeme (IsWord)

/-! ## The kinds of words -/

namespace Spelling

/-- The spellings of the table are words. -/
theorem isWord_of_mem_table {spelling : Spelling} (mem : spelling ∈ table) :
    IsWord spelling.text := by
  have all : table.all (fun spelling => !spelling.text.isEmpty &&
      spelling.text.toList.all Lexeme.isWordChar) = true := by
    decide +kernel
  have here := List.all_eq_true.mp all spelling mem
  simpa [IsWord] using here

theorem isWord_of_find? {text : String} {spelling : Spelling} (found : find? text = some spelling) :
    IsWord text := by
  have same : spelling.text = text := by
    simpa using List.find?_some found
  exact same ▸ isWord_of_mem_table (List.mem_of_find?_eq_some found)

end Spelling

namespace Lexeme

theorem IsWord.ne_paren {text : String} (word : IsWord text) : text ≠ "(" ∧ text ≠ ")" := by
  constructor
  · rintro rfl
    exact absurd (word.2 '(' (by simp)) (by decide)
  · rintro rfl
    exact absurd (word.2 ')' (by simp)) (by decide)

end Lexeme

namespace Kind

theorem ofText_of_find? {text : String} {spelling : Spelling}
    (found : Spelling.find? text = some spelling) :
    ofText text = .connective spelling.connective := by
  obtain ⟨notOpen, notClose⟩ := (Spelling.isWord_of_find? found).ne_paren
  rw [ofText, if_neg notOpen, if_neg notClose, found]

theorem ofText_of_find?_eq_none {text : String} (word : IsWord text)
    (absent : Spelling.find? text = none) : ofText text = .symbol := by
  obtain ⟨notOpen, notClose⟩ := word.ne_paren
  rw [ofText, if_neg notOpen, if_neg notClose, absent]

/-- A text that is no parenthesis has the kind that the table gives it. -/
theorem find?_of_ofText {text : String} {connective : Connective}
    (kind : ofText text = .connective connective) :
    ∃ spelling, Spelling.find? text = some spelling ∧ spelling.connective = connective := by
  unfold ofText at kind
  split at kind
  · cases kind
  · split at kind
    · cases kind
    · split at kind
      case h_1 spelling found => exact ⟨spelling, found, Kind.connective.inj kind⟩
      case h_2 => cases kind

end Kind

namespace Formula

/-- A text spells a connective exactly if it has the kind of the connective. -/
theorem spells_iff {text : String} {connective : Connective} :
    Spells text connective ↔ Kind.ofText text = .connective connective := by
  rw [Spells, Option.map_eq_some_iff]
  constructor
  · rintro ⟨spelling, found, rfl⟩
    exact Kind.ofText_of_find? found
  · intro kind
    exact Kind.find?_of_ofText kind

/-- A text is a name exactly if it is a word with the kind of a symbol. -/
theorem isName_iff {text : String} :
    IsName text ↔ IsWord text ∧ Kind.ofText text = .symbol := by
  have words : (∀ c ∈ text.toList, c ≠ '(' ∧ c ≠ ')' ∧ Text.isBlank c = false) ↔
      ∀ c ∈ text.toList, Lexeme.isWordChar c = true := by
    simp [Lexeme.isWordChar, Lexeme.isParen, and_assoc]
  rw [IsName, words, ← and_assoc]
  refine and_congr_right fun word => ⟨Kind.ofText_of_find?_eq_none word, fun kind => ?_⟩
  cases found : Spelling.find? text with
  | none => rfl
  | some spelling =>
    rw [Kind.ofText_of_find? found] at kind
    cases kind

/-! ## The words of a tree -/

/-- The root of a formula as it was written. -/
def written (formula : Formula) : String :=
  (formula.node 0).written

/-- The kind of the text of a root. -/
def kind : Formula → Kind
  | .symbol _ => .symbol
  | .constant value => .connective (.constant value)
  | .not _ _ => .connective .not
  | .binary op _ _ _ => .connective (.binary op)

/-- Whether a text can be read as the root of a formula. -/
def SpelledBy (formula : Formula) (text : String) : Prop :=
  IsWord text ∧ Kind.ofText text = formula.kind

theorem spelledBy_iff_spells {formula : Formula} {text : String} {connective : Connective}
    (kind : formula.kind = .connective connective) :
    formula.SpelledBy text ↔ Spells text connective := by
  rw [SpelledBy, kind, spells_iff, and_iff_right_iff_imp]
  intro kind
  obtain ⟨spelling, found, -⟩ := Kind.find?_of_ofText kind
  exact Spelling.isWord_of_find? found

/-- The words for the truth constants are spellings of them. -/
theorem spelledBy_constant (value : Bool) :
    (Formula.constant value).SpelledBy (Formula.constant value).written := by
  rw [spelledBy_iff_spells rfl, Spells]
  cases value <;> decide +kernel

/-- A formula is well spelled exactly if each root in it can be read from its text. -/
theorem wellSpelled_iff {formula : Formula} :
    formula.WellSpelled ↔ ∀ part ∈ formula.subformulas, part.SpelledBy part.written := by
  induction formula with
  | symbol name =>
    rw [WellSpelled, isName_iff, subformulas, List.forall_mem_singleton]
    rfl
  | constant value =>
    rw [WellSpelled, subformulas, List.forall_mem_singleton, true_iff]
    exact spelledBy_constant value
  | not spelling operand ih =>
    rw [WellSpelled, ih, subformulas, List.forall_mem_cons, spelledBy_iff_spells rfl]
    rfl
  | binary op spelling left right ihLeft ihRight =>
    rw [WellSpelled, ihLeft, ihRight, subformulas, List.forall_mem_append, List.forall_mem_cons,
      spelledBy_iff_spells rfl]
    exact and_left_comm

end Formula

/-! ## What tokens spell -/

/-- Whether a token has the kind of its text, and a word for a symbol. -/
def Token.Sound (token : Token) : Prop :=
  token.kind = Kind.ofText token.raw ∧ (token.kind = .symbol → IsWord token.raw)

theorem Token.sound_of_mem_ofText {text : String} {token : Token} (mem : token ∈ ofText text) :
    token.Sound := by
  refine ⟨kind_of_mem_ofText mem, fun kind => ?_⟩
  obtain ⟨lexeme, inText, rfl⟩ := mem_ofText mem
  rcases Lexeme.isParen_or_isWord inText with raw | raw | word
  · rw [typed, raw] at kind
    cases kind
  · rw [typed, raw] at kind
    cases kind
  · exact word

/-- Only the parentheses have the kinds of parentheses. -/
theorem Token.Sound.raw_of_paren {token : Token} (sound : token.Sound) :
    (token.kind = .openParen → token.raw = "(") ∧ (token.kind = .closeParen → token.raw = ")") := by
  rw [sound.1, Kind.ofText]
  by_cases isOpen : token.raw = "("
  · simp [isOpen]
  · by_cases isClose : token.raw = ")"
    · simp [isClose]
    · cases found : Spelling.find? token.raw <;> simp [isOpen, isClose]

/-- Sound tokens spell well spelled formulas only. -/
theorem Formula.Derives.wellSpelled {tokens : List Token} {formula : Formula}
    (h : Derives tokens formula) (sound : ∀ token ∈ tokens, token.Sound) :
    formula.WellSpelled := by
  induction h with
  | @symbol token kind =>
    obtain ⟨same, word⟩ := sound token List.mem_cons_self
    exact isName_iff.mpr ⟨word kind, same.symm.trans kind⟩
  | constant => trivial
  | @not sign _ _ kind _ ih =>
    obtain ⟨⟨same, -⟩, operandSound⟩ := List.forall_mem_cons.mp sound
    exact ⟨spells_iff.mpr (same.symm.trans kind), ih operandSound⟩
  | binary _ _ signKind _ _ left right =>
    simp only [List.forall_mem_cons, List.forall_mem_append] at sound
    obtain ⟨-, leftSound, ⟨same, -⟩, rightSound, -⟩ := sound
    exact ⟨spells_iff.mpr (same.symm.trans signKind), left leftSound, right rightSound⟩

theorem Formula.Joins.wellSpelled {tokens : List Token} {formula : Formula}
    (h : Joins tokens formula) (sound : ∀ token ∈ tokens, token.Sound) :
    formula.WellSpelled := by
  obtain ⟨left, signKind, right⟩ := h
  rw [List.forall_mem_append, List.forall_mem_cons] at sound
  obtain ⟨leftSound, ⟨same, -⟩, rightSound⟩ := sound
  exact ⟨spells_iff.mpr (same.symm.trans signKind), left.wellSpelled leftSound,
    right.wellSpelled rightSound⟩

end TruthTable
