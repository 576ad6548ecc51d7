import TruthTable.Formula.Grammar

/-!
# Derivations

What the grammar fixes about a token list without any reader. Every connective of two operands
brings its own pair of parentheses, so two things hold of each derivation:

- the tokens have one tree, and no tokens behind them make them another formula
  (`Derives.unique`): no formula is a proper beginning of a formula;
- opening parentheses and connectives of two operands are equally many
  (`Derives.openings_eq`), which is what a count over all tokens can see of a missing pair.
-/

namespace TruthTable

namespace Token

theorem lacksParen_iff {tokens : List Token} :
    lacksParen tokens = true ↔ openings tokens < binaries tokens :=
  decide_eq_true_iff

@[simp] theorem openings_append (before after : List Token) :
    openings (before ++ after) = openings before + openings after :=
  List.countP_append

@[simp] theorem binaries_append (before after : List Token) :
    binaries (before ++ after) = binaries before + binaries after :=
  List.countP_append

@[simp] theorem openings_cons (token : Token) (rest : List Token) :
    openings (token :: rest) = openings rest + if token.kind = .openParen then 1 else 0 := by
  simp [openings, List.countP_cons]

@[simp] theorem binaries_cons (token : Token) (rest : List Token) :
    binaries (token :: rest) = binaries rest + if token.kind.isBinary then 1 else 0 :=
  List.countP_cons

@[simp] theorem openings_nil : openings [] = 0 := rfl

@[simp] theorem binaries_nil : binaries [] = 0 := rfl

end Token

namespace Formula

/-- A connective of two operands is higher than one level, since its operands are formulas. -/
theorem one_lt_height_binary {op : BinaryOp} {spelling : String} {left right : Formula} :
    1 < (Formula.binary op spelling left right).height := by
  have := left.height_pos
  rw [height]
  omega

namespace Derives

/-- A formula has a first token. -/
theorem ne_nil {tokens : List Token} {formula : Formula} (h : Derives tokens formula) :
    tokens ≠ [] := by
  cases h <;> simp

/-- Two formulas that begin the same token list are the same formula. -/
theorem unique {tokens tokens' rest rest' : List Token} {formula formula' : Formula}
    (h : Derives tokens formula) (h' : Derives tokens' formula')
    (same : tokens ++ rest = tokens' ++ rest') :
    tokens = tokens' ∧ formula = formula' ∧ rest = rest' := by
  induction h generalizing tokens' rest rest' formula' with
  | symbol kind =>
    cases h' <;> simp_all
  | constant kind =>
    cases h' <;> simp_all
  | not kind _ ih =>
    cases h' with
    | not _ operand' =>
      rw [List.cons_append, List.cons_append, List.cons.injEq] at same
      obtain ⟨rfl, inner⟩ := same
      obtain ⟨rfl, rfl, rfl⟩ := ih operand' inner
      exact ⟨rfl, rfl, rfl⟩
    | _ => simp_all
  | binary openKind _ signKind _ closeKind left right =>
    cases h' with
    | binary openKind' left' signKind' right' closeKind' =>
      simp only [List.cons_append, List.append_assoc, List.cons.injEq] at same
      obtain ⟨rfl, inner⟩ := same
      obtain ⟨rfl, rfl, atSign⟩ := left left' inner
      rw [List.cons.injEq] at atSign
      obtain ⟨rfl, behindSign⟩ := atSign
      obtain ⟨rfl, rfl, atClose⟩ := right right' behindSign
      simp only [List.nil_append, List.cons.injEq] at atClose
      obtain ⟨rfl, rfl⟩ := atClose
      have sameOp := signKind.symm.trans signKind'
      rw [Kind.connective.injEq, Connective.binary.injEq] at sameOp
      exact ⟨rfl, by rw [sameOp], rfl⟩
    | _ => simp_all

/-- Two formulas that begin the same token list have the same token behind them. -/
theorem unique_cons {tokens tokens' rest rest' : List Token} {next next' : Token}
    {formula formula' : Formula} (h : Derives tokens formula) (h' : Derives tokens' formula')
    (same : tokens ++ next :: rest = tokens' ++ next' :: rest') :
    tokens = tokens' ∧ formula = formula' ∧ next = next' ∧ rest = rest' := by
  obtain ⟨sameTokens, sameFormula, behind⟩ := h.unique h' same
  obtain ⟨sameNext, sameRest⟩ := List.cons.inj behind
  exact ⟨sameTokens, sameFormula, sameNext, sameRest⟩

/-- No formula is a proper beginning of a formula. -/
theorem eq_nil_of_append {tokens more : List Token} {formula formula' : Formula}
    (h : Derives tokens formula) (h' : Derives (tokens ++ more) formula') : more = [] := by
  have nothingBehind : tokens ++ more = tokens ++ more ++ [] := (List.append_nil _).symm
  obtain ⟨-, -, same⟩ := h.unique h' nothingBehind
  exact same

/-- Each connective of two operands has an opening parenthesis of its own, and there are no
others. -/
theorem openings_eq {tokens : List Token} {formula : Formula} (h : Derives tokens formula) :
    Token.openings tokens = Token.binaries tokens := by
  induction h with
  | symbol kind | constant kind => simp [kind, Kind.isBinary]
  | not kind _ ih => simp [kind, Kind.isBinary, ih]
  | binary openKind _ signKind _ closeKind left right =>
    simp [openKind, signKind, closeKind, Kind.isBinary, left, right]
    omega

end Derives

/-! ## Inside a pair of parentheses -/

/-- `Joins tokens formula` says that the tokens spell a connective between its two operands, as
they do inside its pair of parentheses. -/
inductive Joins : List Token → Formula → Prop
  | intro {sign : Token} {before after : List Token} {op : BinaryOp} {left right : Formula} :
      Derives before left → sign.kind = .connective (.binary op) → Derives after right →
      Joins (before ++ sign :: after) (.binary op sign.raw left right)

theorem Joins.ne_nil {tokens : List Token} {formula : Formula} (h : Joins tokens formula) :
    tokens ≠ [] := by
  obtain ⟨-, -, -⟩ := h
  simp

/-- A formula that starts with an opening parenthesis ends with a closing one, and a connective
stands with its operands between them. -/
theorem Derives.of_openParen {first : Token} {rest : List Token} {formula : Formula}
    (h : Derives (first :: rest) formula) (openKind : first.kind = .openParen) :
    ∃ inner last, rest = inner ++ [last] ∧ last.kind = .closeParen ∧ Joins inner formula := by
  cases h with
  | @binary _ sign last before after _ _ _ _ left signKind right closeKind =>
    exact ⟨before ++ sign :: after, last, by simp, closeKind, .intro left signKind right⟩
  | _ => simp_all

/-- A pair of parentheses makes a connective with its operands a formula. -/
theorem Joins.derives {first last : Token} {tokens : List Token} {formula : Formula}
    (h : Joins tokens formula) (openKind : first.kind = .openParen)
    (closeKind : last.kind = .closeParen) : Derives (first :: (tokens ++ [last])) formula := by
  obtain ⟨left, signKind, right⟩ := h
  have derived := Derives.binary openKind left signKind right closeKind
  simpa only [List.append_assoc, List.cons_append] using derived

/-- The outermost pair may stand anywhere: positions do not count. -/
theorem derives_pair_iff {length : Int} {tokens : List Token} {formula : Formula} :
    Derives (⟨-1, "(", .openParen, true⟩ :: (tokens ++ [⟨length, ")", .closeParen, true⟩]))
      formula ↔ Joins tokens formula := by
  refine ⟨fun h => ?_, fun h => h.derives rfl rfl⟩
  obtain ⟨inner, last, same, -, joins⟩ := h.of_openParen rfl
  obtain ⟨rfl, -⟩ := List.append_inj' same rfl
  exact joins

theorem derives_enclose_iff {length : Int} {tokens : List Token} {formula : Formula} :
    Derives (Token.enclose length tokens) formula ↔ Joins tokens formula :=
  derives_pair_iff

/-- Where only the outermost pair is missing, there is one opening parenthesis too few. -/
theorem Joins.openings_add_one {tokens : List Token} {formula : Formula}
    (h : Joins tokens formula) :
    Token.openings tokens + 1 = Token.binaries tokens := by
  obtain ⟨left, signKind, right⟩ := h
  simp [left.openings_eq, right.openings_eq, signKind, Kind.isBinary]
  omega

end Formula

end TruthTable
