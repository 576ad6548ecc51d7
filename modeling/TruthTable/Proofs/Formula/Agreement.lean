import Mathlib.Data.List.Forall2
import TruthTable.Formula.Parser
import TruthTable.Proofs.Worksheet.Header

/-!
# Two runs of the reader

Tokens are alike if they differ in their places and in the spelling of connectives only. The reader
cannot tell alike token lists apart. From the same place in both it goes through the same steps, so
it either reads the same formula up to its spellings and stops at the same place, or it fails in
both at the same token, or in both at the end of the text (`Reader.agree_formula`).

`Reader.Agree` is the relation between two readers. It is kept by every step of a reader
(`agree_next`, `agree_nextTyped`, `agree_failAt`) and by putting steps together (`Agree.bind`), so
the proof for a whole reader has the shape of the reader.
-/

namespace TruthTable

namespace Formula

/-- The formula without its spellings. -/
def unspelled (formula : Formula) : Formula :=
  formula.mapSpellings fun _ => ""

theorem unspelled_not {operand operand' : Formula} {spelling spelling' : String}
    (same : operand.unspelled = operand'.unspelled) :
    (Formula.not spelling operand).unspelled = (Formula.not spelling' operand').unspelled :=
  congrArg (Formula.not "") same

theorem unspelled_binary {op : BinaryOp} {left left' right right' : Formula}
    {spelling spelling' : String} (sameLeft : left.unspelled = left'.unspelled)
    (sameRight : right.unspelled = right'.unspelled) :
    (Formula.binary op spelling left right).unspelled =
      (Formula.binary op spelling' left' right').unspelled :=
  congrArg₂ (Formula.binary op "") sameLeft sameRight

end Formula

namespace Token

/-- Whether two tokens have the same kind, and symbols the same name. -/
def Alike (one other : Token) : Prop :=
  one.kind = other.kind ∧ (one.kind = .symbol → one.raw = other.raw)

instance (one other : Token) : Decidable (one.Alike other) :=
  inferInstanceAs (Decidable (_ ∧ _))

/-- The position just behind the last typed token. -/
def lastStop (tokens : List Token) : Int :=
  (Cursor.mk tokens.reverse []).typedEnd

/-- `SamePlace one other position position'` says that the positions mean the same in two token
lists: the start of the typed tokens with the same number, or the end of the last typed token. -/
inductive SamePlace (one other : List Token) : Int → Int → Prop
  | start {k : Nat} {token token' : Token} :
      one[k]? = some token → other[k]? = some token' → token.implicit = false →
      SamePlace one other token.position token'.position
  | stop : SamePlace one other (lastStop one) (lastStop other)

/-- `Parallel first one other` says that two token lists are alike, and that from the number `first`
on no token was assumed, but for a closing parenthesis at the end. -/
structure Parallel (first : Nat) (one other : List Token) : Prop where
  alike : List.Forall₂ (fun token token' => token.Alike token' ∧ token.implicit = token'.implicit)
    one other
  closing : ∀ k token, first ≤ k → one[k]? = some token → token.implicit = true →
    token.kind = .closeParen ∧ k + 1 = one.length

namespace Parallel

variable {first k : Nat} {one other : List Token}

theorem symm (parallel : Parallel first one other) : Parallel first other one where
  alike := (parallel.alike.imp fun _ _ ⟨⟨kind, raw⟩, origin⟩ =>
    ⟨⟨kind.symm, fun symbol => (raw (kind.trans symbol)).symm⟩, origin.symm⟩).flip
  closing := by
    intro k token' started here' assumed
    obtain ⟨inside', rfl⟩ := List.getElem?_eq_some_iff.mp here'
    have inside : k < one.length := parallel.alike.length_eq ▸ inside'
    obtain ⟨⟨kind, -⟩, origin⟩ := parallel.alike.get inside inside'
    obtain ⟨closes, last⟩ := parallel.closing k one[k] started (List.getElem?_eq_getElem inside)
      (origin.trans assumed)
    exact ⟨kind.symm.trans closes, parallel.alike.length_eq ▸ last⟩

/-- Alike lists have alike tokens at the same places. -/
theorem getElem? (parallel : Parallel first one other) {token : Token}
    (here : one[k]? = some token) :
    ∃ token', other[k]? = some token' ∧ token.Alike token' ∧ token.implicit = token'.implicit := by
  obtain ⟨inside, rfl⟩ := List.getElem?_eq_some_iff.mp here
  have inside' : k < other.length := parallel.alike.length_eq ▸ inside
  exact ⟨other[k], List.getElem?_eq_getElem inside', parallel.alike.get inside inside'⟩

theorem getElem?_eq_none (parallel : Parallel first one other) (behind : one[k]? = none) :
    other[k]? = none := by
  rw [List.getElem?_eq_none_iff] at behind ⊢
  exact parallel.alike.length_eq ▸ behind

end Parallel

end Token

namespace Cursor

/-- The place behind the first `k` tokens. -/
def behind (tokens : List Token) (k : Nat) : Cursor :=
  ⟨(tokens.take k).reverse, tokens.drop k⟩

variable {tokens : List Token} {k : Nat}

theorem behind_zero (tokens : List Token) : behind tokens 0 = start tokens := rfl

/-- The next token, and the place behind it. -/
theorem behind_succ {token : Token} (here : tokens[k]? = some token) :
    ∃ taken rest, behind tokens k = ⟨taken, token :: rest⟩ ∧
      behind tokens (k + 1) = ⟨token :: taken, rest⟩ := by
  obtain ⟨inside, rfl⟩ := List.getElem?_eq_some_iff.mp here
  refine ⟨(tokens.take k).reverse, tokens.drop (k + 1), ?_, ?_⟩
  · rw [behind, List.drop_eq_getElem_cons inside]
  · rw [behind, List.take_succ_eq_append_getElem inside, List.reverse_append]
    rfl

theorem nextPosition_cons (taken rest : List Token) (token : Token) :
    (Cursor.mk taken (token :: rest)).nextPosition =
      if token.implicit then (Cursor.mk taken (token :: rest)).typedEnd else token.position :=
  rfl

theorem behind_of_getElem?_eq_none (atEnd : tokens[k]? = none) :
    behind tokens k = ⟨tokens.reverse, []⟩ := by
  have past := List.getElem?_eq_none_iff.mp atEnd
  rw [behind, List.take_of_length_le past, List.drop_of_length_le past]

/-- Where no typed token is left, the last one is behind. -/
theorem typedEnd_behind
    (noneLeft : ∀ i token, k ≤ i → tokens[i]? = some token → token.implicit = true) :
    (behind tokens k).typedEnd = Token.lastStop tokens := by
  have none : (tokens.drop k).reverse.find? (!·.implicit) = none := by
    rw [List.find?_eq_none]
    intro token mem
    obtain ⟨i, here⟩ := List.mem_iff_getElem?.mp (List.mem_reverse.mp mem)
    rw [List.getElem?_drop] at here
    simp [noneLeft (k + i) token (Nat.le_add_right k i) here]
  have split : tokens.reverse = (tokens.drop k).reverse ++ (tokens.take k).reverse := by
    rw [← List.reverse_append, List.take_append_drop]
  rw [Token.lastStop, typedEnd, typedEnd, split, List.find?_append, none, Option.none_or]
  rfl

/-- In front of an assumed token no typed token is left. -/
theorem typedEnd_behind_of_implicit {first : Nat} {other : List Token}
    (parallel : Token.Parallel first tokens other) (started : first ≤ k) {token : Token}
    (here : tokens[k]? = some token) (assumed : token.implicit = true) :
    (behind tokens k).typedEnd = Token.lastStop tokens := by
  apply typedEnd_behind
  intro i token' later there
  have last := (parallel.closing k token started here assumed).2
  have inside := (List.getElem?_eq_some_iff.mp there).1
  obtain rfl : i = k := by omega
  rw [here] at there
  obtain rfl := Option.some.inj there
  exact assumed

end Cursor

namespace Reader

open Token (Parallel SamePlace lastStop)
open Cursor (behind behind_succ behind_of_getElem?_eq_none typedEnd_behind_of_implicit)

variable {α β : Type} {first k : Nat} {one other : List Token}

/-! ## Readers that agree -/

/-- `EndsAlike first one other related result result'` says that two results came from two token
lists in the same way: with related values, at the same place, or with errors at the same place. -/
inductive EndsAlike (first : Nat) (one other : List Token) (related : α → α → Prop) :
    EStateM.Result ParseError Cursor α → EStateM.Result ParseError Cursor α → Prop
  | ok {k : Nat} {a a' : α} :
      first ≤ k → related a a' →
      EndsAlike first one other related (.ok a (behind one k)) (.ok a' (behind other k))
  | error {error error' : ParseError} {cursor cursor' : Cursor} :
      SamePlace one other error.position error'.position →
      EndsAlike first one other related (.error error cursor) (.error error' cursor')

/-- Whether two readers end alike from the same place in two token lists. -/
def Agree (first : Nat) (one other : List Token) (related : α → α → Prop)
    (reader reader' : Reader α) : Prop :=
  ∀ k, first ≤ k →
    EndsAlike first one other related (reader (behind one k)) (reader' (behind other k))

theorem Agree.pure {related : α → α → Prop} {a a' : α} (same : related a a') :
    Agree first one other related (Pure.pure a) (Pure.pure a') :=
  fun _ started => .ok started same

/-- Readers agree if they agree step by step. -/
theorem Agree.bind {related : α → α → Prop} {related' : β → β → Prop} {x x' : Reader α}
    {f f' : α → Reader β} (begins : Agree first one other related x x')
    (goesOn : ∀ a a', related a a' → Agree first one other related' (f a) (f' a')) :
    Agree first one other related' (x >>= f) (x' >>= f') := by
  intro k started
  have ends := begins k started
  generalize result : x (behind one k) = end₁ at ends
  generalize result' : x' (behind other k) = end₂ at ends
  cases ends with
  | ok later same =>
    rw [bind_ok result, bind_ok result']
    exact goesOn _ _ same _ later
  | error place =>
    rw [bind_error result, bind_error result']
    exact .error place

/-! ## Single tokens -/

/-- `Found one other token token'` says that two alike tokens stand at the same number in two token
lists. -/
structure Found (one other : List Token) (token token' : Token) : Prop where
  alike : token.Alike token'
  place : ∃ k : Nat, one[k]? = some token ∧ other[k]? = some token'

/-- Two readers that fail at a typed token agree. -/
theorem agree_failAt {related : α → α → Prop} {token token' : Token}
    (found : Found one other token token') (typed : token.implicit = false)
    (cause cause' : ParseError.Cause) :
    Agree first one other related (failAt token.position cause) (failAt token'.position cause') := by
  obtain ⟨k, here, here'⟩ := found.place
  exact fun _ _ => .error (.start here here' typed)

/-- Where any token is due. An assumed token is a closing parenthesis. -/
theorem agree_next (parallel : Parallel first one other) (cause : ParseError.Cause) :
    Agree first one other
      (fun token token' => Found one other token token' ∧
        (token.kind ≠ .closeParen → token.implicit = false))
      (next cause) (next cause) := by
  intro k started
  cases here : one[k]? with
  | none =>
    have here' := parallel.getElem?_eq_none here
    rw [behind_of_getElem?_eq_none here, behind_of_getElem?_eq_none here', next_nil, next_nil]
    exact .error .stop
  | some token =>
    obtain ⟨token', here', alike, -⟩ := parallel.getElem? here
    obtain ⟨taken, rest, now, later⟩ := behind_succ here
    obtain ⟨taken', rest', now', later'⟩ := behind_succ here'
    rw [now, now', next_cons, next_cons, ← later, ← later']
    refine .ok (started.trans (Nat.le_succ k)) ⟨⟨alike, k, here, here'⟩, fun notClose => ?_⟩
    by_contra assumed
    exact notClose (parallel.closing k token started here (by simpa using assumed)).1

/-- Where a token is due that is not a closing parenthesis. What is taken was typed. -/
theorem agree_nextTyped (parallel : Parallel first one other) (cause : ParseError.Cause) :
    Agree first one other
      (fun token token' => Found one other token token' ∧ token.implicit = false)
      (nextTyped cause) (nextTyped cause) := by
  intro k started
  cases here : one[k]? with
  | none =>
    have here' := parallel.getElem?_eq_none here
    rw [behind_of_getElem?_eq_none here, behind_of_getElem?_eq_none here']
    exact .error .stop
  | some token =>
    obtain ⟨token', here', alike, sameOrigin⟩ := parallel.getElem? here
    obtain ⟨taken, rest, now, later⟩ := behind_succ here
    obtain ⟨taken', rest', now', later'⟩ := behind_succ here'
    have sees : Due.formula.endsAt (token :: rest) = Due.formula.endsAt (token' :: rest') := by
      simp only [Due.endsAt, sameOrigin, alike.1]
    cases ends : Due.formula.endsAt (token :: rest) with
    | true =>
      have assumed : token.implicit = true := by simp_all [Due.endsAt]
      have stop := typedEnd_behind_of_implicit parallel started here assumed
      have stop' := typedEnd_behind_of_implicit parallel.symm started here' (sameOrigin ▸ assumed)
      rw [now] at stop ⊢
      rw [now'] at stop' ⊢
      rw [nextTyped_end (by decide) ends, nextTyped_end (by decide) (sees ▸ ends)]
      refine .error ?_
      show SamePlace one other (Cursor.mk _ _).typedEnd (Cursor.mk _ _).typedEnd
      rw [stop, stop']
      exact .stop
    | false =>
      rw [now, now', nextTyped_take (by decide) ends, nextTyped_take (by decide) (sees ▸ ends),
        ← later, ← later']
      refine .ok (started.trans (Nat.le_succ k)) ⟨⟨alike, k, here, here'⟩, ?_⟩
      by_contra assumed
      have closes := (parallel.closing k token started here (by simpa using assumed)).1
      simp_all [Due.endsAt]

/-! ## Whole formulas -/

/-- Where a formula is due and no level is left. -/
theorem agree_formula_zero (parallel : Parallel first one other)
    (related : Formula → Formula → Prop) :
    Agree first one other related (formula 0) (formula 0) := by
  intro k started
  refine .error ?_
  show SamePlace one other (behind one k).nextPosition (behind other k).nextPosition
  cases here : one[k]? with
  | none =>
    have here' := parallel.getElem?_eq_none here
    rw [behind_of_getElem?_eq_none here, behind_of_getElem?_eq_none here']
    exact .stop
  | some token =>
    obtain ⟨token', here', -, sameOrigin⟩ := parallel.getElem? here
    obtain ⟨taken, rest, now, -⟩ := behind_succ here
    obtain ⟨taken', rest', now', -⟩ := behind_succ here'
    cases origin : token.implicit with
    | true =>
      have stop := typedEnd_behind_of_implicit parallel started here origin
      have stop' := typedEnd_behind_of_implicit parallel.symm started here' (sameOrigin ▸ origin)
      rw [now] at stop ⊢
      rw [now'] at stop' ⊢
      rw [Cursor.nextPosition_cons, Cursor.nextPosition_cons, ← sameOrigin, if_pos origin,
        if_pos origin, stop, stop']
      exact .stop
    | false =>
      rw [now, now', Cursor.nextPosition_cons, Cursor.nextPosition_cons, ← sameOrigin,
        if_neg (by simp [origin]), if_neg (by simp [origin])]
      exact .start here here' origin

/-- What follows an opening parenthesis is read alike, if its operands are. -/
theorem Agree.pair (parallel : Parallel first one other) {operand operand' : Reader Formula}
    (agree : Agree first one other
      (fun formula formula' => formula.unspelled = formula'.unspelled) operand operand') :
    Agree first one other (fun formula formula' => formula.unspelled = formula'.unspelled)
      (pair operand) (pair operand') := by
  refine agree.bind fun left left' sameLeft => ?_
  refine (agree_nextTyped parallel _).bind fun sign sign' ⟨found, typed⟩ => ?_
  have sameKind := found.alike.1
  simp only [← sameKind]
  cases kind : sign.kind with
  | connective connective =>
    cases connective with
    | binary op =>
      refine agree.bind fun right right' sameRight => ?_
      refine (agree_next parallel _).bind fun close close' ⟨foundClose, typedClose⟩ => ?_
      simp only [← foundClose.alike.1]
      by_cases closeKind : close.kind = .closeParen
      · rw [if_pos closeKind, if_pos closeKind]
        exact .pure (Formula.unspelled_binary sameLeft sameRight)
      · rw [if_neg closeKind, if_neg closeKind]
        exact agree_failAt foundClose (typedClose closeKind) _ _
    | _ => exact agree_failAt found typed _ _
  | _ => exact agree_failAt found typed _ _

/-- A whole formula is read alike, up to its spellings. -/
theorem agree_formula (parallel : Parallel first one other) (levels : Nat) :
    Agree first one other (fun formula formula' => formula.unspelled = formula'.unspelled)
      (formula levels) (formula levels) := by
  induction levels with
  | zero => exact agree_formula_zero parallel _
  | succ levels ih =>
    refine (agree_nextTyped parallel _).bind fun token token' ⟨found, typed⟩ => ?_
    have sameKind := found.alike.1
    simp only [← sameKind]
    cases kind : token.kind with
    | symbol =>
      refine .pure ?_
      rw [found.alike.2 kind]
    | openParen => exact ih.pair parallel
    | closeParen => exact agree_failAt found typed _ _
    | connective connective =>
      cases connective with
      | constant value => exact .pure rfl
      | not =>
        refine ih.bind fun operand operand' same => ?_
        exact .pure (Formula.unspelled_not same)
      | binary op => exact agree_failAt found typed _ _

end Reader

end TruthTable
