import TruthTable.Proofs.Formula.ErrorPlace
import TruthTable.Proofs.Formula.RoundTrip

/-!
# The height limit

Tokens that spell a formula are refused for one reason only: the formula is higher than the limit.
The error then stands at the first token of the first subformula that is too deep, the one that
lies as many levels below the root as the limit has (`FirstAt`, `ofTokens_tooDeep`). The reader
finds it although it never measures a height: it runs out of levels there for the first time.

The outermost pair of parentheses makes no difference to that. A pair that nobody typed takes a
level like a typed one, so a text is too deep exactly if the formula that it spells is too high
(`tooDeep_iff`), and it spells the same formula with the pair and without it
(`derives_parenthesized`).
-/

namespace TruthTable

namespace Token

variable {length : Int} {tokens before more : List Token} {token : Token}

/-- Behind the first one, the tokens to be read are typed ones, but for a closing parenthesis. -/
theorem mem_of_encloseIfLacking (same : encloseIfLacking length tokens = before ++ token :: more)
    (behind : before ≠ []) (notClose : token.kind ≠ .closeParen) : token ∈ tokens := by
  rw [encloseIfLacking] at same
  split at same
  · obtain ⟨first, before, rfl⟩ := List.exists_cons_of_ne_nil behind
    rw [enclose, List.cons_append, List.cons.injEq] at same
    have inside : token ∈ tokens ++ [assumed length ")"] := by
      rw [same.2]
      exact List.mem_append_right _ List.mem_cons_self
    rcases List.mem_append.mp inside with mem | last
    · exact mem
    · obtain rfl := List.mem_singleton.mp last
      exact absurd rfl notClose
  · rw [same]
    exact List.mem_append_right _ List.mem_cons_self

/-- What the grammar sees of a token: what it means and how it is written. -/
def face (token : Token) : Kind × String :=
  (token.kind, token.raw)

/-- The face of a token of a text is that of its raw text. -/
theorem map_face_ofText (text : String) :
    (ofText text).map face = (Lexeme.raws text).map fun raw => (Kind.ofText raw, raw) := by
  rw [← map_raw_ofText, List.map_map]
  refine List.map_congr_left fun token mem => ?_
  rw [face, kind_of_mem_ofText mem]
  rfl

/-- A pair of parentheses that is typed around a text looks like one that is assumed. -/
theorem map_face_parenthesized (length : Int) (text : String) :
    (ofText ("(" ++ text ++ ")")).map face = (enclose length (ofText text)).map face := by
  rw [map_face_ofText, Lexeme.raws_enclose, enclose, List.map_cons, List.map_cons,
    List.map_append, List.map_append, map_face_ofText]
  rfl

end Token

namespace Formula

variable {length : Int} {tokens tokens' : List Token} {formula : Formula} {text : String}

/-- No formula starts with a closing parenthesis. -/
theorem Derives.kind_ne_closeParen {token : Token} {rest : List Token}
    (h : Derives (token :: rest) formula) : token.kind ≠ .closeParen := by
  cases h <;> simp_all

/-- The grammar sees the faces of tokens only. -/
theorem Derives.of_face (h : Derives tokens formula)
    (same : tokens'.map Token.face = tokens.map Token.face) : Derives tokens' formula := by
  have split {one other : Token} (same : one.face = other.face) :
      one.kind = other.kind ∧ one.raw = other.raw := Prod.mk.inj same
  induction h generalizing tokens' with
  | symbol kind =>
    obtain ⟨token', rfl, face⟩ := List.map_eq_singleton_iff.mp same
    obtain ⟨sameKind, sameRaw⟩ := split face
    rw [← sameRaw]
    exact .symbol (sameKind.trans kind)
  | constant kind =>
    obtain ⟨token', rfl, face⟩ := List.map_eq_singleton_iff.mp same
    exact .constant ((split face).1.trans kind)
  | not kind _ ih =>
    obtain ⟨sign', rest', rfl, face, faces⟩ := List.map_eq_cons_iff.mp same
    obtain ⟨sameKind, sameRaw⟩ := split face
    rw [← sameRaw]
    exact .not (sameKind.trans kind) (ih faces)
  | binary openKind _ signKind _ closeKind left right =>
    simp only [List.map_cons, List.map_append, List.map_nil] at same
    obtain ⟨first', rest', rfl, faceFirst, faces⟩ := List.map_eq_cons_iff.mp same
    obtain ⟨before', behind', rfl, facesBefore, faces⟩ := List.map_eq_append_iff.mp faces
    obtain ⟨sign', rest', rfl, faceSign, faces⟩ := List.map_eq_cons_iff.mp faces
    obtain ⟨after', ending', rfl, facesAfter, faces⟩ := List.map_eq_append_iff.mp faces
    obtain ⟨last', rfl, faceLast⟩ := List.map_eq_singleton_iff.mp faces
    obtain ⟨sameKind, sameRaw⟩ := split faceSign
    rw [← sameRaw]
    exact .binary ((split faceFirst).1.trans openKind) (left facesBefore)
      (sameKind.trans signKind) (right facesAfter) ((split faceLast).1.trans closeKind)

/-- A text whose outermost pair is missing spells the same formula when the pair is typed. -/
theorem derives_parenthesized (joins : Joins (Token.ofText text) formula) :
    Derives (Token.ofText ("(" ++ text ++ ")")) formula :=
  Derives.of_face (derives_enclose_iff.mpr joins) (Token.map_face_parenthesized 0 text)

/-! ## Tokens that spell a formula -/

/-- What is too high is refused at the first token of the first subformula that is too deep. -/
theorem ofTokens_tooDeep (length : Int) (typed : ∀ token ∈ tokens, token.implicit = false)
    (spelled : Derives tokens formula ∨ Joins tokens formula)
    (above : heightLimit < formula.height) :
    ∃ before token inner part,
      FirstAt heightLimit before (token :: inner) part (Token.encloseIfLacking length tokens)
        formula ∧ token ∈ tokens ∧
      ofTokens length tokens = .error ⟨token.position, .tooDeep⟩ := by
  obtain ⟨before, behind, reaches, same, failed⟩ := ofTokens_of_height_lt length spelled above
  have derived := derives_encloseIfLacking length spelled
  have nothingBehind : before ++ behind = Token.encloseIfLacking length tokens ++ [] := by
    rw [List.append_nil, same]
  obtain ⟨inner, part, first⟩ := reaches.firstAt derived nothingBehind
  obtain ⟨partDerived, after, ends⟩ := first.occurs.split
  obtain ⟨token, inner, rfl⟩ := List.exists_cons_of_ne_nil partDerived.ne_nil
  rw [List.append_assoc] at ends
  obtain rfl : behind = token :: (inner ++ after) :=
    List.append_cancel_left (same.symm.trans ends.symm)
  have started : before ≠ [] := by
    rintro rfl
    cases reaches
  have mem := Token.mem_of_encloseIfLacking same started partDerived.kind_ne_closeParen
  refine ⟨before, token, inner, part, first, mem, ?_⟩
  rw [failed, Cursor.nextPosition]
  simp only [typed token mem, Bool.false_eq_true, if_false]

/-! ## Texts that spell a formula -/

/-- A text that spells a formula is too deep exactly if the formula is too high. -/
theorem tooDeep_iff
    (spelled : Derives (Token.ofText text) formula ∨ Joins (Token.ofText text) formula) :
    (∃ position, parse text = .error ⟨position, .tooDeep⟩) ↔ heightLimit < formula.height := by
  constructor
  · rintro ⟨position, failed⟩
    by_contra below
    have read : parse text = .ok (some formula) :=
      parse_eq_some_iff.mpr ⟨spelled, Nat.le_of_not_lt below⟩
    cases failed.symm.trans read
  · intro above
    have nonempty : Token.ofText text ≠ [] := spelled.elim (·.ne_nil) (·.ne_nil)
    obtain ⟨before, behind, -, -, failed⟩ := ofTokens_of_height_lt text.length spelled above
    rw [parse_of_ofText_ne_nil nonempty]
    exact ⟨_, map_some_eq_error_iff.mpr failed⟩

theorem description_tooDeep :
    ParseError.Cause.tooDeep.description = "formula is nested deeper than 512 levels" := by
  decide +kernel

/-- What the height limit refuses. Where the tokens of a text spell a formula, as they are or inside
one more pair of parentheses, the text is read as this formula if it is not higher than 512.
Otherwise the text is refused as too deep, at the first token of the first subformula whose root
lies 512 levels below the root. To type the outermost pair or to leave it out does not change
whether a text is too deep. -/
theorem parse_height_limit (text : String) :
    (∀ all formula,
      all = Token.ofText text ∨
        all = ⟨-1, "(", .openParen, true⟩ ::
          (Token.ofText text ++ [⟨text.length, ")", .closeParen, true⟩]) →
      Derives all formula →
      (formula.height ≤ 512 → parse text = .ok (some formula)) ∧
        (512 < formula.height → ∃ before token inner part,
          FirstAt 512 before (token :: inner) part all formula ∧ token ∈ Token.ofText text ∧
            Reports text token.position "formula is nested deeper than 512 levels")) ∧
      ∀ formula,
        Derives (⟨-1, "(", .openParen, true⟩ ::
          (Token.ofText text ++ [⟨text.length, ")", .closeParen, true⟩])) formula →
        ((∃ position, Reports text position "formula is nested deeper than 512 levels") ↔
          ∃ position, Reports ("(" ++ text ++ ")") position
            "formula is nested deeper than 512 levels") := by
  have typed : ∀ token ∈ Token.ofText text, token.implicit = false :=
    fun _ => Token.implicit_of_mem_ofText
  constructor
  · intro all formula either derived
    have spelled : Derives (Token.ofText text) formula ∨ Joins (Token.ofText text) formula := by
      rcases either with rfl | rfl
      · exact .inl derived
      · exact .inr (derives_pair_iff.mp derived)
    refine ⟨fun below => parse_eq_some_iff.mpr ⟨spelled, below⟩, fun above => ?_⟩
    have lacking : Token.encloseIfLacking text.length (Token.ofText text) = all := by
      rw [Token.encloseIfLacking]
      rcases either with rfl | rfl
      · rw [if_neg (by simp [lacksParen_of_derives derived])]
      · rw [if_pos (lacksParen_of_joins (derives_pair_iff.mp derived))]
        rfl
    obtain ⟨before, token, inner, part, first, mem, failed⟩ :=
      ofTokens_tooDeep text.length typed spelled above
    rw [lacking] at first
    refine ⟨before, token, inner, part, first, mem, ?_⟩
    have nonempty : Token.ofText text ≠ [] := List.ne_nil_of_mem mem
    rw [← description_tooDeep, reports_iff, parse_of_ofText_ne_nil nonempty]
    exact map_some_eq_error_iff.mpr failed
  · intro formula derived
    have joins := derives_pair_iff.mp derived
    rw [← description_tooDeep]
    simp only [reports_iff]
    rw [tooDeep_iff (.inr joins), tooDeep_iff (.inl (derives_parenthesized joins))]

/-- Connectives, each in the right operand of the one before, with a negation on the left. -/
private def chain : Nat → Formula
  | 0 => .symbol "A"
  | n + 1 => .binary .and "&" (.not "!" (.constant true)) (chain n)

private theorem height_chain (n : Nat) : (chain (n + 1)).height = n + 3 := by
  induction n with
  | zero => rfl
  | succ n ih =>
    rw [chain, height, ih, height, height]
    omega

private theorem wellSpelled_chain (n : Nat) : (chain n).WellSpelled := by
  have read : parse "! TRUE & A" = .ok (some (chain 1)) := by decide +kernel
  obtain ⟨⟨sign, negation, name⟩, -⟩ := wellFormed_of_parse read
  induction n with
  | zero => exact name
  | succ n ih => exact ⟨sign, negation, ih⟩

/-- A chain that is one level too high, without its outermost pair and with it. -/
theorem parse_height_limit_of_chain :
    ∃ text all, (chain 511).spelledOut written = "(" ++ text ++ ")" ∧
      all = ⟨-1, "(", .openParen, true⟩ ::
        (Token.ofText text ++ [⟨text.length, ")", .closeParen, true⟩]) ∧
      Derives all (chain 511) ∧ (chain 511).height = 513 ∧
      (∃ before token inner part,
        FirstAt 512 before (token :: inner) part all (chain 511) ∧ token ∈ Token.ofText text ∧
        Reports text token.position "formula is nested deeper than 512 levels") ∧
      ∃ position, Reports ("(" ++ text ++ ")") position
        "formula is nested deeper than 512 levels" := by
  have words := wellSpelled_iff.mp (wellSpelled_chain 511)
  have raws := raws_spelledOut fun part mem => (words part mem).1
  obtain ⟨text, around⟩ : ∃ text, (chain 511).spelledOut written = "(" ++ text ++ ")" := ⟨_, rfl⟩
  rw [around] at raws
  have derived : Derives (⟨-1, "(", .openParen, true⟩ ::
      (Token.ofText text ++ [⟨text.length, ")", .closeParen, true⟩])) (chain 511) :=
    derives_pair_iff.mpr (joins_of_raws (wellSpelled_chain 511) raws)
  have height : (chain 511).height = 513 := height_chain 510
  obtain ⟨spelled, pair⟩ := parse_height_limit text
  obtain ⟨-, refused⟩ := spelled _ _ (.inr rfl) derived
  obtain ⟨before, token, inner, part, first, mem, reports⟩ := refused (by omega)
  exact ⟨text, _, around, rfl, derived, height, ⟨before, token, inner, part, first, mem, reports⟩,
    (pair _ derived).mp ⟨_, reports⟩⟩

end Formula

end TruthTable
