import TruthTable.Proofs.Formula.Agreement

/-!
# A reader that counts its depth

The reader of formulas is given the number of levels that it may still use, and a cursor. The same
reading can be done on one list of tokens with two counters: one for the tokens that were taken, one
for the formulas that were begun and not ended (`Descent`). The second one goes up before the tokens
of a formula are looked at, and down again behind them, also if they are no formula (`nested`).

**The law** (`CountingReader.formula_at`): from any place, and with any number of formulas begun,
the reader with counters reads a formula exactly if the next tokens spell it and its height does not
go beyond the limit. What comes behind does not matter, since no formula is the beginning of another
(`Formula.Derives.eq_of_isPrefix`). And whatever comes of it, the count of formulas is what it was
before.

The definition has a call for each formula that may be begun, and this is enough: the reader is one
that calls itself for operands (`formula_eq_turn`).

`CountingReader.Counts` says of two readers that they do the same from the same place. It is kept by
every step and by putting steps together (`Counts.bind`), so the proof for a whole formula has the
shape of the reader; one formula more or less is one level less or more (`Counts.nested`).
-/

namespace TruthTable

/-- How far a reader has come in a list of tokens: the number of tokens that it has taken, and the
number of formulas that it has begun and not ended. -/
structure Descent where
  taken : Nat
  depth : Nat
  deriving DecidableEq, Repr

/-- A computation that goes on in a list of tokens and can fail. -/
abbrev CountingReader := EStateM ParseError Descent

namespace CountingReader

variable {α β : Type} (tokens : List Token)

/-- Fails at a position. -/
def failAt (position : Int) (cause : ParseError.Cause) : CountingReader α :=
  throw ⟨position, cause⟩

/-- Takes the next token. At the end of the tokens it fails with the given cause. -/
def next (atEnd : ParseError.Cause) : CountingReader Token := fun descent =>
  match tokens[descent.taken]? with
  | some token => .ok token { descent with taken := descent.taken + 1 }
  | none => .error ⟨(Cursor.behind tokens descent.taken).typedEnd, atEnd⟩ descent

/-- Takes the next token, but sees the end of the text in the implicit closing parenthesis. -/
def nextTyped (atEnd : ParseError.Cause) : CountingReader Token := fun descent =>
  match tokens[descent.taken]? with
  | some token =>
    if token.implicit && token.kind == .closeParen then
      .error ⟨(Cursor.behind tokens descent.taken).typedEnd, atEnd⟩ descent
    else next tokens atEnd descent
  | none => next tokens atEnd descent

/-- Reads with one formula more begun. The formula is ended whether it is read or not. -/
def nested (reader : CountingReader α) : CountingReader α := fun descent =>
  match reader { descent with depth := descent.depth + 1 } with
  | .ok a descent => .ok a { descent with depth := descent.depth - 1 }
  | .error error descent => .error error { descent with depth := descent.depth - 1 }

/-- Reads what follows an opening parenthesis. -/
def pair (operand : CountingReader Formula) : CountingReader Formula := do
  let left ← operand
  let sign ← nextTyped tokens .missingConnective
  match sign.kind with
  | .connective (.binary op) =>
    let right ← operand
    let close ← next tokens .missingClose
    if close.kind = .closeParen then
      return .binary op sign.raw left right
    else
      failAt close.position (.notClose close.raw)
  | _ => failAt sign.position (.notConnective sign.raw)

/-- Reads a formula that is begun already, with a reader for its operands. -/
def begun (operand : CountingReader Formula) : CountingReader Formula := do
  let token ← nextTyped tokens .missingFormula
  match token.kind with
  | .symbol => return .symbol token.raw
  | .connective (.constant value) => return .constant value
  | .connective .not => return .not token.raw (← operand)
  | .connective (.binary _) => failAt token.position (.missingLeft token.raw)
  | .openParen => pair tokens operand
  | .closeParen => failAt token.position .strayClose

/-- Begins a formula, reads it and ends it, unless as many formulas are begun as there may be. -/
def turn (operand : CountingReader Formula) : CountingReader Formula := do
  let descent ← get
  if descent.depth = Formula.heightLimit then
    failAt (Cursor.behind tokens descent.taken).nextPosition .tooDeep
  else
    nested (begun tokens operand)

/-- The reader that calls itself for operands, with at most `calls` calls inside each other, and
with `beyond` in place of any further call. -/
def nesting (beyond : CountingReader Formula) : Nat → CountingReader Formula
  | 0 => beyond
  | calls + 1 => turn tokens (nesting beyond calls)

/-- Reads a formula. There is a call for each formula that may be begun, and one for the refusal. -/
def formula : CountingReader Formula :=
  nesting tokens (failAt 0 .tooDeep) (Formula.heightLimit + 1)

/-! ## Readers that do the same -/

variable {tokens} {p d : Nat}

/-- `Counted tokens p d result result'` says that a reader with a cursor and a reader with counters
came from the place `p` to the same place, with the same result, and that `d` formulas are begun
there. -/
inductive Counted (tokens : List Token) (p d : Nat) :
    EStateM.Result ParseError Cursor α → EStateM.Result ParseError Descent α → Prop
  | ok {q : Nat} {a : α} :
      p ≤ q → q ≤ tokens.length →
      Counted tokens p d (.ok a (Cursor.behind tokens q)) (.ok a ⟨q, d⟩)
  | error {q : Nat} {error : ParseError} :
      p ≤ q → q ≤ tokens.length →
      Counted tokens p d (.error error (Cursor.behind tokens q)) (.error error ⟨q, d⟩)

/-- Whether a reader with a cursor and a reader with counters do the same from every place, where
`d` formulas are begun. -/
def Counts (tokens : List Token) (d : Nat) (reader : Reader α) (counting : CountingReader α) :
    Prop :=
  ∀ p ≤ tokens.length, Counted tokens p d (reader (Cursor.behind tokens p)) (counting ⟨p, d⟩)

/-- What was counted from a later place can be counted from an earlier one. -/
theorem Counted.of_le {q : Nat} {result : EStateM.Result ParseError Cursor α}
    {result' : EStateM.Result ParseError Descent α} (le : p ≤ q)
    (counted : Counted tokens q d result result') : Counted tokens p d result result' := by
  cases counted with
  | ok later inside => exact .ok (le.trans later) inside
  | error later inside => exact .error (le.trans later) inside

theorem Counts.pure (a : α) : Counts tokens d (Pure.pure a) (Pure.pure a) :=
  fun _ inside => .ok (Nat.le_refl _) inside

theorem counts_failAt (position : Int) (cause : ParseError.Cause) :
    Counts tokens d (Reader.failAt position cause : Reader α) (failAt position cause) :=
  fun _ inside => .error (Nat.le_refl _) inside

/-- Readers do the same if they do so step by step. -/
theorem Counts.bind {x : Reader α} {x' : CountingReader α} {f : α → Reader β}
    {f' : α → CountingReader β} (begins : Counts tokens d x x')
    (goesOn : ∀ a, Counts tokens d (f a) (f' a)) : Counts tokens d (x >>= f) (x' >>= f') := by
  intro p inside
  have ends := begins p inside
  generalize result : x (Cursor.behind tokens p) = end₁ at ends
  generalize result' : x' ⟨p, d⟩ = end₂ at ends
  cases ends with
  | @ok q a later inside =>
    rw [Reader.bind_ok result, Reader.bind_ok result']
    exact (goesOn a q inside).of_le later
  | error later inside =>
    rw [Reader.bind_error result, Reader.bind_error result']
    exact .error later inside

/-- With one formula more begun, a reader does what it does without. -/
theorem Counts.nested {reader : Reader α} {counting : CountingReader α}
    (counts : Counts tokens (d + 1) reader counting) :
    Counts tokens d reader (nested counting) := by
  intro p inside
  have ends := counts p inside
  unfold CountingReader.nested
  generalize reader (Cursor.behind tokens p) = end₁ at ends ⊢
  generalize counting ⟨p, d + 1⟩ = end₂ at ends ⊢
  cases ends with
  | ok later inside => exact .ok later inside
  | error later inside => exact .error later inside

/-! ## Single tokens -/

theorem counts_next (cause : ParseError.Cause) :
    Counts tokens d (Reader.next cause) (next tokens cause) := by
  intro p inside
  unfold CountingReader.next
  cases here : tokens[p]? with
  | none =>
    have atEnd := Cursor.behind_of_getElem?_eq_none here
    rw [atEnd, Reader.next_nil, ← atEnd]
    exact .error (Nat.le_refl p) inside
  | some token =>
    obtain ⟨taken, rest, now, later⟩ := Cursor.behind_succ here
    rw [now, Reader.next_cons, ← later]
    exact .ok (Nat.le_succ p) (List.getElem?_eq_some_iff.mp here).1

theorem counts_nextTyped (cause : ParseError.Cause) :
    Counts tokens d (Reader.nextTyped cause) (nextTyped tokens cause) := by
  intro p inside
  have taken : Counted tokens p d (Reader.next cause _) (next tokens cause _) :=
    counts_next cause p inside
  unfold CountingReader.nextTyped
  cases here : tokens[p]? with
  | none =>
    rw [Cursor.behind_of_getElem?_eq_none here] at taken ⊢
    exact taken
  | some token =>
    have seen : Reader.nextTyped cause (Cursor.behind tokens p) =
        if token.implicit && token.kind == .closeParen then
          .error ⟨(Cursor.behind tokens p).typedEnd, cause⟩ (Cursor.behind tokens p)
        else Reader.next cause (Cursor.behind tokens p) := by
      obtain ⟨taken, rest, now, -⟩ := Cursor.behind_succ here
      rw [now]
      rfl
    rw [seen]
    by_cases ends : (token.implicit && token.kind == .closeParen) = true
    · simp only [if_pos ends]
      exact .error (Nat.le_refl p) inside
    · simp only [if_neg ends]
      exact taken

/-! ## Whole formulas -/

theorem Counts.pair {operand : Reader Formula} {operand' : CountingReader Formula}
    (counts : Counts tokens d operand operand') :
    Counts tokens d (Reader.pair operand) (pair tokens operand') := by
  refine counts.bind fun left => ?_
  refine (counts_nextTyped _).bind fun sign => ?_
  cases kind : sign.kind with
  | connective connective =>
    cases connective with
    | binary op =>
      refine counts.bind fun right => ?_
      refine (counts_next _).bind fun close => ?_
      by_cases closeKind : close.kind = .closeParen
      · rw [if_pos closeKind, if_pos closeKind]
        exact .pure _
      · rw [if_neg closeKind, if_neg closeKind]
        exact counts_failAt _ _
    | _ => exact counts_failAt _ _
  | _ => exact counts_failAt _ _

theorem Counts.begun {levels : Nat} {operand : CountingReader Formula}
    (counts : Counts tokens d (Reader.formula levels) operand) :
    Counts tokens d (Reader.formula (levels + 1)) (begun tokens operand) := by
  refine (counts_nextTyped _).bind fun token => ?_
  cases kind : token.kind with
  | symbol => exact .pure _
  | openParen => exact counts.pair
  | closeParen => exact counts_failAt _ _
  | connective connective =>
    cases connective with
    | constant value => exact .pure _
    | not => exact counts.bind fun operand => .pure _
    | binary op => exact counts_failAt _ _

/-- A reader that has calls enough reads with the levels that are left. -/
theorem counts_nesting (beyond : CountingReader Formula) {calls : Nat}
    (shallow : d ≤ Formula.heightLimit) (enough : Formula.heightLimit < calls + d) :
    Counts tokens d (Reader.formula (Formula.heightLimit - d)) (nesting tokens beyond calls) := by
  induction calls generalizing d with
  | zero => omega
  | succ calls ih =>
    intro p inside
    rw [nesting, turn]
    show Counted tokens p d _ ((if d = Formula.heightLimit then
      failAt (Cursor.behind tokens p).nextPosition .tooDeep
      else nested (begun tokens (nesting tokens beyond calls))) ⟨p, d⟩)
    by_cases full : d = Formula.heightLimit
    · rw [if_pos full, full, Nat.sub_self]
      exact .error (Nat.le_refl p) inside
    · rw [if_neg full]
      have below : Counts tokens (d + 1) _ (nesting tokens beyond calls) :=
        ih (by omega) (by omega)
      have levels : Formula.heightLimit - (d + 1) + 1 = Formula.heightLimit - d := by omega
      rw [← levels]
      exact below.begun.nested p inside

/-- Places inside the tokens are told apart by the tokens behind them. -/
theorem behind_injective {q q' : Nat} (inside : q ≤ tokens.length) (inside' : q' ≤ tokens.length)
    (same : Cursor.behind tokens q = Cursor.behind tokens q') : q = q' := by
  have taken := congrArg (fun cursor => cursor.taken.length) same
  simp only [Cursor.behind, List.length_reverse, List.length_take] at taken
  omega

/-- What a reader with a cursor does leaves one thing to do for a reader with counters. -/
theorem Counted.unique {result : EStateM.Result ParseError Cursor α}
    {one other : EStateM.Result ParseError Descent α} (h : Counted tokens p d result one)
    (h' : Counted tokens p d result other) : one = other := by
  cases h with
  | @ok q a later inside =>
    generalize same : EStateM.Result.ok a (Cursor.behind tokens q) = result at h'
    cases h' with
    | ok later' inside' =>
      obtain ⟨rfl, place⟩ := EStateM.Result.ok.inj same
      rw [behind_injective inside inside' place]
    | error => cases same
  | @error q error later inside =>
    generalize same : EStateM.Result.error error (Cursor.behind tokens q) = result at h'
    cases h' with
    | ok => cases same
    | error later' inside' =>
      obtain ⟨rfl, place⟩ := EStateM.Result.error.inj same
      rw [behind_injective inside inside' place]

theorem counts_formula (shallow : d ≤ Formula.heightLimit) :
    Counts tokens d (Reader.formula (Formula.heightLimit - d)) (formula tokens) :=
  counts_nesting _ shallow (by omega)

/-- There are always calls enough: the reader is one that calls itself. -/
theorem formula_eq_turn (inside : p ≤ tokens.length) (shallow : d ≤ Formula.heightLimit) :
    formula tokens ⟨p, d⟩ = turn tokens (formula tokens) ⟨p, d⟩ := by
  have oneMore : Counts tokens d _ (turn tokens (formula tokens)) :=
    counts_nesting (failAt 0 .tooDeep) shallow (by omega : _ < Formula.heightLimit + 1 + 1 + d)
  exact (counts_formula shallow p inside).unique (oneMore p inside)

end CountingReader

/-! ## What is read -/

private theorem extract_append_drop (tokens : List Token) {p q : Nat} (le : p ≤ q) :
    tokens.extract p q ++ tokens.drop q = tokens.drop p := by
  have behind : (tokens.drop p).drop (q - p) = tokens.drop q := by
    rw [List.drop_drop, Nat.add_sub_of_le le]
  rw [List.extract_eq_take_drop, ← behind, List.take_append_drop]

private theorem take_append_extract (tokens : List Token) {p q : Nat} (le : p ≤ q) :
    tokens.take p ++ tokens.extract p q = tokens.take q := by
  rw [List.extract_eq_take_drop, ← List.take_add, Nat.add_sub_of_le le]

/-- No formula is the beginning of another, and none has two trees. -/
theorem Formula.Derives.eq_of_isPrefix {front whole : List Token} {formula formula' : Formula}
    (derived : Derives front formula) (derived' : Derives whole formula')
    (begins : front <+: whole) : front = whole ∧ formula = formula' := by
  obtain ⟨rest, split⟩ := begins
  obtain ⟨same, sameFormula, -⟩ :=
    derived.unique derived' (split.trans (List.append_nil whole).symm)
  exact ⟨same, sameFormula⟩

/-- From one place, one formula is spelled at most, and it ends at one place. -/
theorem Formula.Derives.unique_extract {tokens : List Token} {p q q' : Nat}
    {formula formula' : Formula} (le : p ≤ q) (inside : q ≤ tokens.length) (le' : p ≤ q')
    (inside' : q' ≤ tokens.length) (derived : Derives (tokens.extract p q) formula)
    (derived' : Derives (tokens.extract p q') formula') : q = q' ∧ formula = formula' := by
  have same := (extract_append_drop tokens le).trans
    (extract_append_drop tokens le').symm
  obtain ⟨-, sameFormula, rest⟩ := derived.unique derived' same
  have lengths := congrArg List.length rest
  simp only [List.length_drop] at lengths
  exact ⟨by omega, sameFormula⟩

namespace Reader

variable {tokens : List Token} {p q : Nat} {formula : Formula} {levels : Nat}

/-- From any place, a formula is read exactly if the next tokens spell it and there are levels
enough for it. -/
theorem formula_behind_iff (le : p ≤ q) :
    Reader.formula levels (Cursor.behind tokens p) = .ok formula (Cursor.behind tokens q) ↔
      Formula.Derives (tokens.extract p q) formula ∧ formula.height ≤ levels := by
  constructor
  · intro read
    obtain ⟨spelled, split, -, derived, below⟩ := derives_of_formula read
    have same : spelled = tokens.extract p q := by
      rw [← extract_append_drop tokens le] at split
      exact (List.append_cancel_right split).symm
    exact ⟨same ▸ derived, below⟩
  · rintro ⟨derived, below⟩
    have read := formula_of_derives (tokens.take p).reverse (tokens.drop q) derived below
    rwa [extract_append_drop tokens le, ← List.reverse_append,
      take_append_extract tokens le] at read

end Reader

namespace CountingReader

/-- **A formula from any place and at any depth** is read exactly if the next tokens spell it and
there are levels enough for it. There is at most one such formula, and it ends at one place: no
formula is the beginning of another. Whether one is read or not, all formulas that were begun are
ended, and the place lies between the first one and the end of the tokens. The reader calls itself,
and the reader with a cursor does the same. -/
theorem formula_at (tokens : List Token) (p d : Nat) (inside : p ≤ tokens.length)
    (shallow : d ≤ 512) :
    (∀ formula q, (∃ depth, CountingReader.formula tokens ⟨p, d⟩ = .ok formula ⟨q, depth⟩) ↔
        p ≤ q ∧ q ≤ tokens.length ∧ Formula.Derives (tokens.extract p q) formula ∧
          d + formula.height ≤ 512) ∧
      (∀ formula q, p ≤ q → (Reader.formula (512 - d) (Cursor.behind tokens p) =
          .ok formula (Cursor.behind tokens q) ↔
        Formula.Derives (tokens.extract p q) formula ∧ d + formula.height ≤ 512)) ∧
      (∀ formula q formula' q', p ≤ q → q ≤ tokens.length → p ≤ q' → q' ≤ tokens.length →
        Formula.Derives (tokens.extract p q) formula →
          Formula.Derives (tokens.extract p q') formula' → q = q' ∧ formula = formula') ∧
      (∀ front whole formula formula', Formula.Derives front formula →
        Formula.Derives whole formula' → front <+: whole → front = whole ∧ formula = formula') ∧
      (∃ q, p ≤ q ∧ q ≤ tokens.length ∧
        ((∃ formula, CountingReader.formula tokens ⟨p, d⟩ = .ok formula ⟨q, d⟩) ∨
          ∃ error, CountingReader.formula tokens ⟨p, d⟩ = .error error ⟨q, d⟩)) ∧
      CountingReader.formula tokens ⟨p, d⟩ =
        turn tokens (CountingReader.formula tokens) ⟨p, d⟩ ∧
      Counted tokens p d (Reader.formula (512 - d) (Cursor.behind tokens p))
        (CountingReader.formula tokens ⟨p, d⟩) := by
  have counted : Counted tokens p d (Reader.formula (512 - d) (Cursor.behind tokens p))
      (CountingReader.formula tokens ⟨p, d⟩) := counts_formula shallow p inside
  refine ⟨fun formula q => ⟨?_, ?_⟩, fun formula q le => ?_,
    fun _ _ _ _ => Formula.Derives.unique_extract, fun _ _ _ _ => Formula.Derives.eq_of_isPrefix,
    ?_, formula_eq_turn inside shallow, counted⟩
  · rintro ⟨depth, read⟩
    rw [read] at counted
    generalize result : Reader.formula (512 - d) (Cursor.behind tokens p) = end₁ at counted
    cases counted with
    | ok le inside' =>
      obtain ⟨derived, below⟩ := (Reader.formula_behind_iff le).mp result
      exact ⟨le, inside', derived, by omega⟩
  · rintro ⟨le, inside', derived, below⟩
    have result := (Reader.formula_behind_iff le).mpr
      ⟨derived, (by omega : formula.height ≤ 512 - d)⟩
    rw [result] at counted
    exact ⟨d, counted.unique (.ok le inside')⟩
  · rw [Reader.formula_behind_iff le]
    refine and_congr_right fun _ => ?_
    omega
  · generalize Reader.formula (512 - d) (Cursor.behind tokens p) = end₁ at counted
    generalize CountingReader.formula tokens ⟨p, d⟩ = end₂ at counted ⊢
    cases counted with
    | ok le inside' => exact ⟨_, le, inside', .inl ⟨_, rfl⟩⟩
    | error le inside' => exact ⟨_, le, inside', .inr ⟨_, rfl⟩⟩

/-- Inside an implicit pair, with two levels left and with one. -/
theorem formula_at_of_levels_left :
    (∃ depth, CountingReader.formula (Token.enclose 5 (Token.ofText "A & B")) ⟨0, 510⟩ =
        .ok (.binary .and "&" (.symbol "A") (.symbol "B")) ⟨5, depth⟩) ∧
      ¬ ∃ depth, CountingReader.formula (Token.enclose 5 (Token.ofText "A & B")) ⟨0, 511⟩ =
        .ok (.binary .and "&" (.symbol "A") (.symbol "B")) ⟨5, depth⟩ := by
  have tokens : (Token.enclose 5 (Token.ofText "A & B")).extract 0 5 =
      .assumed (-1) "(" :: ([.typed 0 "A"] ++ .typed 2 "&" :: ([.typed 4 "B"] ++
        [.assumed 5 ")"])) := by
    decide +kernel
  have derived : Formula.Derives ((Token.enclose 5 (Token.ofText "A & B")).extract 0 5)
      (.binary .and "&" (.symbol "A") (.symbol "B")) := by
    rw [tokens]
    exact .binary (by decide) (.symbol (by decide)) (by decide) (.symbol (by decide)) (by decide)
  obtain ⟨read, -⟩ := formula_at (Token.enclose 5 (Token.ofText "A & B")) 0 510
    (by decide +kernel) (by decide)
  obtain ⟨refused, -⟩ := formula_at (Token.enclose 5 (Token.ofText "A & B")) 0 511
    (by decide +kernel) (by decide)
  refine ⟨(read _ _).mpr ⟨by decide, by decide +kernel, derived, by decide⟩, fun found => ?_⟩
  obtain ⟨-, -, -, below⟩ := (refused _ _).mp found
  exact absurd below (by decide)

end CountingReader

end TruthTable
