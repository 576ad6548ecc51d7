import TruthTable.Proofs.Text.ReadingBack
import TruthTable.Proofs.Token.Lexing

/-!
# Lexemes tile the text

A text is made of its lexemes and of blanks around them, and of nothing else (`Lexeme.tiles_scan`).
So the raw text of a lexeme stands in the text at the position of the lexeme
(`Lexeme.Tiles.exists_split`), and the last lexeme ends where the text ends when the blanks at its
end are cut off (`Token.stop_getLast?_ofText`).
-/

namespace TruthTable

open Text (isBlank)

namespace Lexeme

/-- `Tiles position text lexemes` says that the text is made of the lexemes in turn, with nothing
but blanks in front of them, between them and behind them. Positions are counted from `position`
on. -/
inductive Tiles : Nat → List Char → List Lexeme → Prop
  | blanks {position : Nat} {gap : List Char} :
      (∀ c ∈ gap, isBlank c = true) → Tiles position gap []
  | lexeme {position : Nat} {gap rest : List Char} {raw : String} {lexemes : List Lexeme} :
      (∀ c ∈ gap, isBlank c = true) → Tiles (position + gap.length + raw.length) rest lexemes →
      Tiles position (gap ++ (raw.toList ++ rest)) (⟨position + gap.length, raw⟩ :: lexemes)

namespace Tiles

variable {position : Nat} {text : List Char} {lexemes : List Lexeme} {lexeme : Lexeme}

/-- A blank in front makes the gap in front longer. -/
theorem cons_blank {c : Char} (blank : isBlank c = true) (h : Tiles (position + 1) text lexemes) :
    Tiles position (c :: text) lexemes := by
  cases h with
  | blanks gap => exact .blanks (List.forall_mem_cons.mpr ⟨blank, gap⟩)
  | @lexeme _ gap rest raw lexemes blanks h =>
    have longer : position + 1 + gap.length = position + (c :: gap).length := by
      rw [List.length_cons]
      omega
    rw [longer] at h ⊢
    exact .lexeme (List.forall_mem_cons.mpr ⟨blank, blanks⟩) h

/-- A lexeme in front has no gap in front of it. -/
theorem cons_lexeme {raw : String} (h : Tiles (position + raw.length) text lexemes) :
    Tiles position (raw.toList ++ text) (⟨position, raw⟩ :: lexemes) :=
  @Tiles.lexeme position [] text raw lexemes (List.forall_mem_nil _) h

/-- The raw text of a lexeme stands in the text at its position. -/
theorem exists_split (h : Tiles position text lexemes) (mem : lexeme ∈ lexemes) :
    ∃ before after, text = before ++ (lexeme.raw.toList ++ after) ∧
      lexeme.position = position + before.length := by
  induction h with
  | blanks => cases mem
  | @lexeme position gap rest raw lexemes _ _ ih =>
    rcases List.mem_cons.mp mem with rfl | mem
    · exact ⟨gap, rest, rfl, rfl⟩
    · obtain ⟨before, after, rfl, place⟩ := ih mem
      refine ⟨gap ++ (raw.toList ++ before), after, by simp only [List.append_assoc], ?_⟩
      rw [place, List.length_append, List.length_append, String.length_toList]
      omega

/-- Behind the last lexeme there are only blanks. -/
theorem split_getLast? (h : Tiles position text lexemes) (ends : lexemes.getLast? = some lexeme) :
    ∃ before after, text = before ++ (lexeme.raw.toList ++ after) ∧
      lexeme.position = position + before.length ∧ ∀ c ∈ after, isBlank c = true := by
  induction h with
  | blanks => cases ends
  | @lexeme position gap rest raw lexemes _ tiles ih =>
    cases lexemes with
    | nil =>
      obtain rfl := Option.some.inj ends
      cases tiles with
      | blanks behind => exact ⟨gap, rest, rfl, rfl, behind⟩
    | cons next lexemes =>
      rw [List.getLast?_cons_cons] at ends
      obtain ⟨before, after, rfl, place, behind⟩ := ih ends
      refine ⟨gap ++ (raw.toList ++ before), after, by simp only [List.append_assoc], ?_, behind⟩
      rw [place, List.length_append, List.length_append, String.length_toList]
      omega

end Tiles

/-- The lexemes of a text tile it. -/
theorem tiles_scan (position : Nat) (text : List Char) :
    Tiles position text (scan position text) := by
  fun_induction scan position text with
  | case1 => exact .blanks (List.forall_mem_nil _)
  | case2 position c rest blank ih => exact ih.cons_blank blank
  | case3 position c rest _ _ ih =>
    have length : position + 1 = position + (String.singleton c).length := by
      rw [String.length_singleton]
    rw [length] at ih ⊢
    have tiles := ih.cons_lexeme
    rwa [String.toList_singleton, List.singleton_append] at tiles
  | case4 position c rest _ _ run ih =>
    have length : position + 1 + run.length = position + (String.ofList (c :: run)).length := by
      rw [String.length_ofList, List.length_cons]
      omega
    rw [length] at ih ⊢
    have tiles := ih.cons_lexeme
    rwa [String.toList_ofList, List.cons_append, List.takeWhile_append_dropWhile] at tiles

/-- No character of a lexeme is blank. -/
theorem isBlank_of_mem_raw {position : Nat} {text : List Char} {lexeme : Lexeme}
    (mem : lexeme ∈ scan position text) {c : Char} (inRaw : c ∈ lexeme.raw.toList) :
    isBlank c = false := by
  rcases isParen_or_isWord mem with raw | raw | ⟨-, word⟩
  · rw [raw] at inRaw
    obtain rfl : c = '(' := List.mem_singleton.mp inRaw
    decide
  · rw [raw] at inRaw
    obtain rfl : c = ')' := List.mem_singleton.mp inRaw
    decide
  · exact (isBlank_of_isWordChar (word c inRaw)).1

/-- The last lexeme ends where the text ends without the blanks at its end. -/
theorem stop_getLast? {text : String} {lexeme : Lexeme}
    (ends : (ofText text).getLast? = some lexeme) :
    lexeme.position + lexeme.raw.length = (Text.trimEnd text).length := by
  have mem : lexeme ∈ ofText text := List.mem_of_getLast? ends
  obtain ⟨before, after, split, place, blanks⟩ := (tiles_scan 0 text.toList).split_getLast? ends
  have unbroken : ∀ c ∈ lexeme.raw.toList.reverse, isBlank c = false :=
    fun c inRaw => isBlank_of_mem_raw mem (List.mem_reverse.mp inRaw)
  have nonempty : lexeme.raw.toList.reverse ≠ [] := by
    rw [ne_eq, List.reverse_eq_nil_iff, ← List.length_eq_zero_iff, String.length_toList]
    exact Nat.ne_of_gt (length_raw_pos mem)
  rw [Text.trimEnd, split, List.reverse_append, List.reverse_append, List.append_assoc,
    List.dropWhile_append_of_pos fun c behind => blanks c (List.mem_reverse.mp behind),
    Text.dropWhile_append_of_unbroken unbroken nonempty, String.length_ofList, place]
  simp only [List.length_reverse, List.length_append, String.length_toList]
  omega

end Lexeme

namespace Token

/-- A token stands in the text at its position. -/
theorem split_ofText {text : String} {token : Token} (mem : token ∈ ofText text) :
    ∃ before after, text.toList = before ++ (token.raw.toList ++ after) ∧
      token.position = before.length := by
  obtain ⟨lexeme, inText, rfl⟩ := mem_ofText mem
  obtain ⟨before, after, split, place⟩ :=
    (Lexeme.tiles_scan 0 text.toList).exists_split inText
  refine ⟨before, after, split, ?_⟩
  rw [Nat.zero_add] at place
  exact congrArg Nat.cast place

/-- Tokens lie inside the text. -/
theorem bounds_ofText {text : String} {token : Token} (mem : token ∈ ofText text) :
    0 ≤ token.position ∧ token.position ≤ token.stop ∧ token.stop ≤ text.length := by
  obtain ⟨before, after, split, place⟩ := split_ofText mem
  have length := congrArg List.length split
  simp only [List.length_append, String.length_toList] at length
  rw [stop]
  omega

/-- The last token ends where the text ends without the blanks at its end. -/
theorem stop_getLast?_ofText {text : String} {last : Token}
    (ends : (ofText text).getLast? = some last) : last.stop = (Text.trimEnd text).length := by
  rw [ofText, List.getLast?_map, Option.map_eq_some_iff] at ends
  obtain ⟨lexeme, ends, rfl⟩ := ends
  rw [← Lexeme.stop_getLast? ends]
  rfl

end Token

end TruthTable
