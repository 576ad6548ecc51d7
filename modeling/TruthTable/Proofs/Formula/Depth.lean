import TruthTable.Proofs.Formula.Expectation

/-!
# Places at a depth

A subformula lies at a depth below the whole formula, and its tokens stand together in the tokens of
the whole. `Occurs` says both. A reader that goes from left to right and has a limited number of
levels comes to an end at the first place of the depth that it has no level for.

`Reaches depth tokens` describes this place by what lies in front of it: the tokens begin a formula,
they end where a subformula at the depth starts, and no formula that they have left behind goes that
deep. `Reaches.firstAt` says that such a place is the first subformula at the depth, in any
formula that the tokens begin.
-/

namespace TruthTable.Formula

/-- `Occurs depth before inner part all whole` says that the tokens `all` spell the formula `whole`,
and that in them, behind the tokens `before`, the tokens `inner` spell a subformula `part`, whose
root lies `depth` levels below the root of the whole. -/
inductive Occurs : Nat → List Token → List Token → Formula → List Token → Formula → Prop
  | root {all : List Token} {whole : Formula} :
      Derives all whole → Occurs 0 [] all whole all whole
  | not {depth : Nat} {sign : Token} {before inner tokens : List Token} {part operand : Formula} :
      sign.kind = .connective .not → Occurs depth before inner part tokens operand →
      Occurs (depth + 1) (sign :: before) inner part (sign :: tokens) (.not sign.raw operand)
  | left {depth : Nat} {first sign last : Token} {before inner tokens after : List Token}
      {op : BinaryOp} {part left right : Formula} :
      first.kind = .openParen → Occurs depth before inner part tokens left →
      sign.kind = .connective (.binary op) → Derives after right → last.kind = .closeParen →
      Occurs (depth + 1) (first :: before) inner part
        (first :: (tokens ++ sign :: (after ++ [last]))) (.binary op sign.raw left right)
  | right {depth : Nat} {first sign last : Token} {before inner front tokens : List Token}
      {op : BinaryOp} {part left right : Formula} :
      first.kind = .openParen → Derives front left → sign.kind = .connective (.binary op) →
      Occurs depth before inner part tokens right → last.kind = .closeParen →
      Occurs (depth + 1) (first :: (front ++ sign :: before)) inner part
        (first :: (front ++ sign :: (tokens ++ [last]))) (.binary op sign.raw left right)

/-- `FirstAt depth before inner part all whole` says that the subformula `part` occurs there at the
depth, and that no other one at the depth starts earlier. -/
structure FirstAt (depth : Nat) (before inner : List Token) (part : Formula) (all : List Token)
    (whole : Formula) : Prop where
  occurs : Occurs depth before inner part all whole
  first : ∀ before' inner' part', Occurs depth before' inner' part' all whole →
    before.length ≤ before'.length

/-- `Reaches depth tokens` says that the tokens end in front of a formula inside `depth` unfinished
ones, and that no formula among them goes down to the level of that one. -/
inductive Reaches : Nat → List Token → Prop
  | start : Reaches 0 []
  | not {depth : Nat} {sign : Token} {tokens : List Token} :
      sign.kind = .connective .not → Reaches depth tokens → Reaches (depth + 1) (sign :: tokens)
  | left {depth : Nat} {first : Token} {tokens : List Token} :
      first.kind = .openParen → Reaches depth tokens → Reaches (depth + 1) (first :: tokens)
  | right {depth : Nat} {first sign : Token} {before tokens : List Token} {op : BinaryOp}
      {left : Formula} :
      first.kind = .openParen → Derives before left → left.height ≤ depth →
      sign.kind = .connective (.binary op) → Reaches depth tokens →
      Reaches (depth + 1) (first :: (before ++ sign :: tokens))

variable {depth : Nat} {tokens before inner all rest rest' : List Token} {part whole : Formula}

namespace Occurs

/-- The subformula is spelled by its tokens, and these stand behind those in front of them. -/
theorem split (h : Occurs depth before inner part all whole) :
    Derives inner part ∧ before ++ inner <+: all := by
  induction h with
  | root derived => exact ⟨derived, List.prefix_rfl⟩
  | not _ _ ih =>
    obtain ⟨derived, front⟩ := ih
    refine ⟨derived, ?_⟩
    rw [List.cons_append, List.cons_prefix_cons]
    exact ⟨rfl, front⟩
  | left _ _ _ _ _ ih =>
    obtain ⟨derived, front⟩ := ih
    refine ⟨derived, ?_⟩
    rw [List.cons_append, List.cons_prefix_cons]
    exact ⟨rfl, front.trans (List.prefix_append _ _)⟩
  | right _ _ _ _ _ ih =>
    obtain ⟨derived, front⟩ := ih
    refine ⟨derived, ?_⟩
    rw [List.cons_append, List.append_assoc, List.cons_append, List.cons_prefix_cons,
      List.prefix_append_right_inj, List.cons_prefix_cons]
    exact ⟨rfl, rfl, front.trans (List.prefix_append _ _)⟩

/-- In front of a subformula at a depth a formula is due, inside as many unfinished ones. -/
theorem awaits (h : Occurs depth before inner part all whole) : Awaits depth before .formula := by
  induction h with
  | root => exact .start
  | not kind _ ih => exact .not kind ih
  | left openKind _ _ _ _ ih => exact .left openKind ih
  | right openKind front signKind _ _ ih => exact .right openKind front signKind ih

end Occurs

/-- Where a formula is due inside `depth` unfinished ones, a subformula of the whole starts at the
depth. -/
theorem Awaits.occurs (h : Awaits depth tokens .formula) (derived : Derives all whole)
    (same : tokens ++ rest = all ++ rest') :
    ∃ inner part, Occurs depth tokens inner part all whole := by
  generalize formulaDue : Due.formula = due at h
  induction h generalizing all rest rest' whole with
  | start => exact ⟨all, whole, .root derived⟩
  | not kind _ ih =>
    cases derived with
    | not _ operand =>
      obtain ⟨rfl, inside⟩ := List.cons.inj same
      obtain ⟨inner, part, occurs⟩ := ih operand inside formulaDue
      exact ⟨inner, part, .not kind occurs⟩
    | _ => simp_all
  | left openKind _ ih =>
    cases derived with
    | binary _ left signKind right closeKind =>
      rw [List.cons_append, List.cons_append, List.append_assoc] at same
      obtain ⟨rfl, inside⟩ := List.cons.inj same
      obtain ⟨inner, part, occurs⟩ := ih left inside formulaDue
      exact ⟨inner, part, .left openKind occurs signKind right closeKind⟩
    | _ => simp_all
  | connective => cases formulaDue
  | right openKind left signKind _ ih =>
    cases derived with
    | binary _ left' signKind' right closeKind =>
      simp only [List.cons_append, List.append_assoc] at same
      obtain ⟨rfl, inside⟩ := List.cons.inj same
      obtain ⟨rfl, rfl, rfl, behindSign⟩ := left.unique_cons left' inside
      obtain ⟨inner, part, occurs⟩ := ih right behindSign formulaDue
      exact ⟨inner, part, .right openKind left signKind' occurs closeKind⟩
    | _ => simp_all
  | close => cases formulaDue

namespace Reaches

theorem awaits (h : Reaches depth tokens) : Awaits depth tokens .formula := by
  induction h with
  | start => exact .start
  | not kind _ ih => exact .not kind ih
  | left openKind _ ih => exact .left openKind ih
  | right openKind left _ signKind _ ih => exact .right openKind left signKind ih

/-- There is no earlier place inside as many unfinished formulas. -/
theorem length_le (h : Reaches depth tokens) (awaits : Awaits depth before .formula)
    (same : tokens ++ rest = before ++ rest') : tokens.length ≤ before.length := by
  induction h generalizing before rest rest' with
  | start => exact Nat.zero_le _
  | not kind _ ih =>
    cases awaits with
    | not _ operand =>
      obtain ⟨rfl, inside⟩ := List.cons.inj same
      exact Nat.succ_le_succ (ih operand inside)
    | _ => simp_all
  | left openKind reaches ih =>
    cases awaits with
    | not => simp_all
    | left _ operand =>
      obtain ⟨rfl, inside⟩ := List.cons.inj same
      exact Nat.succ_le_succ (ih operand inside)
    | right _ left _ _ =>
      -- The left operand holds the place, so the right one lies behind it.
      rw [List.cons_append, List.cons_append, List.append_assoc] at same
      obtain ⟨rfl, inside⟩ := List.cons.inj same
      obtain ⟨token, more, rfl, -, -⟩ := reaches.awaits.goes_on left inside
      simp only [List.length_cons, List.length_append]
      omega
  | right openKind left shallow signKind _ ih =>
    cases awaits with
    | not => simp_all
    | left _ operand =>
      -- The left operand does not go down to the depth.
      rw [List.cons_append, List.cons_append, List.append_assoc] at same
      obtain ⟨rfl, inside⟩ := List.cons.inj same
      obtain ⟨-, -, -, -, above⟩ := operand.goes_on left inside.symm
      exact absurd above (Nat.not_lt_of_le shallow)
    | right _ left' _ operand =>
      simp only [List.cons_append, List.append_assoc] at same
      obtain ⟨rfl, inside⟩ := List.cons.inj same
      obtain ⟨rfl, rfl, rfl, behindSign⟩ := left.unique_cons left' inside
      have := ih operand behindSign
      simp only [List.length_cons, List.length_append]
      omega

/-- The place is that of the first subformula at the depth. -/
theorem firstAt (h : Reaches depth tokens) (derived : Derives all whole)
    (same : tokens ++ rest = all ++ rest') :
    ∃ inner part, FirstAt depth tokens inner part all whole := by
  obtain ⟨inner, part, occurs⟩ := h.awaits.occurs derived same
  refine ⟨inner, part, occurs, fun before inner' part' occurs' => ?_⟩
  obtain ⟨-, after, split⟩ := occurs.split
  obtain ⟨-, after', split'⟩ := occurs'.split
  rw [List.append_assoc] at split split'
  exact h.length_le occurs'.awaits (split.trans split'.symm)

end Reaches

end TruthTable.Formula
