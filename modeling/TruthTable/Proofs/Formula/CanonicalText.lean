import TruthTable.Proofs.Formula.RoundTrip

/-!
# The canonical text of a formula

Reading a text and printing the formula changes the text in three ways only. The truth constants are
written as words, the outermost pair of parentheses is put back if it was left out, and the blanks
are those of a printed text. All other lexemes stay, in the same order: each node is printed by the
word it was read from, and the parentheses that are handed out to the nodes are the ones that were
typed.

The proof compares both texts with the lexemes of the formula (`Formula.lexemes`). The tokens of the
text that was read have them, because a derivation has one token for each of them
(`Derives.map_printed`), and so has the printed text (`raws_spelledOut`). Which blanks it has is a
matter of the lexemes alone (`spaced_lexemes`).
-/

namespace TruthTable

/-! ## Blanks between lexemes -/

namespace Lexeme

/-- What stands between two lexemes of a printed text: one space, but nothing behind an opening and
nothing in front of a closing parenthesis. -/
def gap (before after : String) : String :=
  if before = "(" ∨ after = ")" then "" else " "

/-- The text of some lexemes, with the gaps of a printed text. -/
def spaced : List String → String
  | [] => ""
  | [raw] => raw
  | before :: after :: rest => before ++ gap before after ++ spaced (after :: rest)

theorem spaced_append {before after : List String} {last first : String}
    (ends : before.getLast? = some last) (starts : after.head? = some first) :
    spaced (before ++ after) = spaced before ++ gap last first ++ spaced after := by
  induction before with
  | nil => cases ends
  | cons raw rest ih =>
    cases rest with
    | nil =>
      obtain rfl : raw = last := by simpa using ends
      obtain ⟨behind, rfl⟩ := List.head?_eq_some_iff.mp starts
      rfl
    | cons next rest =>
      rw [List.getLast?_cons_cons] at ends
      rw [List.cons_append, List.cons_append, spaced, ← List.cons_append, ih ends, spaced]
      simp only [String.append_assoc]

theorem spaced_open (raws : List String) : spaced ("(" :: raws) = "(" ++ spaced raws := by
  cases raws with
  | nil => rfl
  | cons first rest =>
    rw [spaced, gap, if_pos (.inl rfl), String.append_empty]

theorem spaced_close (raws : List String) : spaced (raws ++ [")"]) = spaced raws ++ ")" := by
  cases ends : raws.getLast? with
  | none =>
    rw [List.getLast?_eq_none_iff.mp ends]
    rfl
  | some last =>
    rw [spaced_append ends rfl, gap, if_pos (.inr rfl), String.append_empty]
    rfl

/-- Whether lexemes have gaps on either side: they begin with no closing and end with no opening
parenthesis. -/
def Apart (raws : List String) : Prop :=
  (∃ first, raws.head? = some first ∧ first ≠ ")") ∧ ∃ last, raws.getLast? = some last ∧ last ≠ "("

theorem apart_word {text : String} (word : IsWord text) : Apart [text] :=
  ⟨⟨text, rfl, word.ne_paren.2⟩, ⟨text, rfl, word.ne_paren.1⟩⟩

theorem apart_enclose (raws : List String) : Apart ("(" :: (raws ++ [")"])) := by
  refine ⟨⟨"(", rfl, by decide⟩, ⟨")", ?_, by decide⟩⟩
  rw [← List.cons_append, List.getLast?_append, List.getLast?_singleton, Option.some_or]

theorem Apart.append {before after : List String} (h : Apart before) (h' : Apart after) :
    Apart (before ++ after) := by
  obtain ⟨⟨first, starts, notClose⟩, -⟩ := h
  obtain ⟨-, last, ends, notOpen⟩ := h'
  refine ⟨⟨first, ?_, notClose⟩, ⟨last, ?_, notOpen⟩⟩
  · rw [List.head?_append, starts, Option.some_or]
  · rw [List.getLast?_append, ends, Option.some_or]

theorem Apart.spaced_append {before after : List String} (h : Apart before) (h' : Apart after) :
    spaced (before ++ after) = spaced before ++ " " ++ spaced after := by
  obtain ⟨-, last, ends, notOpen⟩ := h
  obtain ⟨⟨first, starts, notClose⟩, -⟩ := h'
  rw [Lexeme.spaced_append ends starts, gap, if_neg (not_or.mpr ⟨notOpen, notClose⟩)]

end Lexeme

namespace Formula

section Spacing

open Lexeme (Apart spaced)

variable {word : Formula → String} {formula : Formula}

theorem lexemes_binary (op : BinaryOp) (spelling : String) (left right : Formula) :
    (Formula.binary op spelling left right).lexemes word =
      "(" :: (left.lexemes word ++ word (.binary op spelling left right) :: right.lexemes word ++
        [")"]) := by
  rw [lexemes, List.append_assoc, List.cons_append]

theorem apart_lexemes (words : ∀ part ∈ formula.subformulas, Lexeme.IsWord (word part)) :
    Apart (formula.lexemes word) := by
  induction formula with
  | symbol name | constant value => exact Lexeme.apart_word (words _ List.mem_cons_self)
  | not spelling operand ih =>
    rw [subformulas, List.forall_mem_cons] at words
    obtain ⟨sign, operandWords⟩ := words
    exact (Lexeme.apart_word sign).append (ih operandWords)
  | binary op spelling left right =>
    rw [lexemes_binary]
    exact Lexeme.apart_enclose _

/-- The gaps of a printed text are those of the formula spelled out. -/
theorem spaced_lexemes (words : ∀ part ∈ formula.subformulas, Lexeme.IsWord (word part)) :
    spaced (formula.lexemes word) = formula.spelledOut word := by
  induction formula with
  | symbol name | constant value => rfl
  | not spelling operand ih =>
    rw [subformulas, List.forall_mem_cons] at words
    obtain ⟨sign, operandWords⟩ := words
    rw [lexemes, ← List.singleton_append,
      (Lexeme.apart_word sign).spaced_append (apart_lexemes operandWords), ih operandWords,
      spelledOut]
    rfl
  | binary op spelling left right ihLeft ihRight =>
    rw [subformulas, List.forall_mem_append, List.forall_mem_cons] at words
    obtain ⟨leftWords, sign, rightWords⟩ := words
    -- Inside the pair there is a gap on either side of the sign; the pair itself adds none.
    have signApart := (Lexeme.apart_word sign).append (apart_lexemes rightWords)
    have inside : spaced (left.lexemes word ++ word (.binary op spelling left right) ::
        right.lexemes word) =
          left.spelledOut word ++ " " ++ word (.binary op spelling left right) ++ " " ++
            right.spelledOut word := by
      rw [← List.singleton_append, (apart_lexemes leftWords).spaced_append signApart,
        (Lexeme.apart_word sign).spaced_append (apart_lexemes rightWords), ihLeft leftWords,
        ihRight rightWords]
      simp only [spaced, String.append_assoc]
    rw [lexemes_binary, Lexeme.spaced_open, Lexeme.spaced_close, inside]
    exact String.append_assoc.symm

end Spacing

end Formula

/-! ## Lexemes that are kept -/

/-- The raw text of a token as it is printed. Truth constants are written as words. -/
def Token.printed (token : Token) : String :=
  match token.kind with
  | .connective (.constant true) => "TRUE"
  | .connective (.constant false) => "FALSE"
  | _ => token.raw

namespace Formula

/-- The tokens that spell a formula are printed as its lexemes. -/
theorem Derives.map_printed {tokens : List Token} {formula : Formula} (h : Derives tokens formula)
    (sound : ∀ token ∈ tokens, token.Sound) :
    tokens.map Token.printed = formula.lexemes written := by
  induction h with
  | symbol kind =>
    rw [List.map_singleton, Token.printed, kind]
    rfl
  | @constant token value kind =>
    rw [List.map_singleton, Token.printed, kind]
    cases value <;> rfl
  | not kind _ ih =>
    obtain ⟨-, operandSound⟩ := List.forall_mem_cons.mp sound
    rw [List.map_cons, ih operandSound, Token.printed, kind]
    rfl
  | binary openKind _ signKind _ closeKind ihLeft ihRight =>
    simp only [List.forall_mem_cons, List.forall_mem_append] at sound
    obtain ⟨firstSound, leftSound, -, rightSound, lastSound, -⟩ := sound
    have first := firstSound.raw_of_paren.1 openKind
    have last := lastSound.raw_of_paren.2 closeKind
    simp only [List.map_cons, List.map_append, List.map_nil, ihLeft leftSound, ihRight rightSound,
      Token.printed, openKind, signKind, closeKind, first, last]
    rfl

/-- So are the tokens that spell it but for its outermost pair, inside that pair. -/
theorem Joins.map_printed {tokens : List Token} {formula : Formula} (h : Joins tokens formula)
    (sound : ∀ token ∈ tokens, token.Sound) :
    "(" :: (tokens.map Token.printed ++ [")"]) = formula.lexemes written := by
  obtain ⟨left, signKind, right⟩ := h
  rw [List.forall_mem_append, List.forall_mem_cons] at sound
  obtain ⟨leftSound, -, rightSound⟩ := sound
  simp only [List.map_append, List.map_cons, left.map_printed leftSound,
    right.map_printed rightSound, Token.printed, signKind, List.append_assoc, List.cons_append]
  rfl

/-- The tokens of a text are printed as the lexemes of the formula that is read from it. If there
are fewer opening parentheses than connectives of two operands, the outermost pair is missing. -/
theorem lexemes_of_parse {text : String} {formula : Formula}
    (read : parse text = .ok (some formula)) :
    formula.lexemes written =
      if Token.openings (Token.ofText text) < Token.binaries (Token.ofText text) then
        "(" :: ((Token.ofText text).map Token.printed ++ [")"])
      else (Token.ofText text).map Token.printed := by
  have sound : ∀ token ∈ Token.ofText text, token.Sound := fun _ => Token.sound_of_mem_ofText
  obtain ⟨derived | joins, -⟩ := parse_eq_some_iff.mp read
  · have enough := Nat.le_of_eq derived.openings_eq.symm
    rw [if_neg (Nat.not_lt.mpr enough), derived.map_printed sound]
  · have lacks := Nat.lt_of_succ_le (Nat.le_of_eq joins.openings_add_one)
    rw [if_pos lacks, joins.map_printed sound]

/-- What is printed of a formula that was read from a text. Its lexemes are those of the text, but
truth constants are written as words, and a pair of parentheses stands around them exactly if the
text has fewer opening parentheses than connectives of two operands. Its blanks are one space
between lexemes, but none behind an opening and in front of a closing parenthesis. It is read again,
and printed as itself. -/
theorem print_of_parse {text : String} {formula : Formula}
    (read : parse text = .ok (some formula)) :
    let tokens := Token.ofText text
    let printed := (Worksheet.ofFormula formula).print
    Lexeme.raws printed =
        (if Token.openings tokens < Token.binaries tokens then
          "(" :: (tokens.map Token.printed ++ [")"])
        else tokens.map Token.printed) ∧
      printed = Lexeme.spaced (Lexeme.raws printed) ∧
      ∃ again, parse printed = .ok (some again) ∧
        (Worksheet.ofFormula again).print = printed := by
  intro tokens printed
  obtain ⟨wellSpelled, below⟩ := wellFormed_of_parse read
  have spelled := wellSpelled_iff.mp wellSpelled
  have words : ∀ part ∈ formula.subformulas, Lexeme.IsWord part.written :=
    fun part mem => (spelled part mem).1
  have spelledOut : printed = formula.spelledOut written := Worksheet.print_ofFormula formula
  have raws : Lexeme.raws printed = formula.lexemes written := by
    rw [spelledOut, raws_spelledOut words]
  have readAgain : parse printed = .ok (some formula) := by
    rw [spelledOut, parse_spelledOut spelled below, respell_written]
  refine ⟨raws.trans (lexemes_of_parse read), ?_, formula, readAgain, rfl⟩
  rw [raws, spaced_lexemes words, spelledOut]

/-- A text without its outermost pair, with a truth constant, a word that holds an operator, and
parentheses that meet. -/
theorem print_of_parse_of_implicit :
    let text := " (! ( a&b  | 1) -> c) <=> ~(d ^ e)"
    let formula : Formula :=
      .binary .iff "<=>"
        (.binary .implies "->" (.not "!" (.binary .or "|" (.symbol "a&b") (.constant true)))
          (.symbol "c"))
        (.not "~" (.binary .xor "^" (.symbol "d") (.symbol "e")))
    let printed := (Worksheet.ofFormula formula).print
    parse text = .ok (some formula) ∧
      Lexeme.raws printed = ["(", "(", "!", "(", "a&b", "|", "TRUE", ")", "->", "c", ")", "<=>", "~",
        "(", "d", "^", "e", ")", ")"] ∧
      printed = "((! (a&b | TRUE) -> c) <=> ~ (d ^ e))" ∧
      ∃ again, parse printed = .ok (some again) ∧
        (Worksheet.ofFormula again).print = printed := by
  intro text formula printed
  have read : parse text = .ok (some formula) := by decide +kernel
  obtain ⟨raws, blanks, again⟩ := print_of_parse read
  have kept : Lexeme.raws printed = ["(", "(", "!", "(", "a&b", "|", "TRUE", ")", "->", "c", ")",
      "<=>", "~", "(", "d", "^", "e", ")", ")"] :=
    raws.trans (by decide +kernel)
  exact ⟨read, kept, blanks.trans (congrArg Lexeme.spaced kept), again⟩

end Formula

end TruthTable
