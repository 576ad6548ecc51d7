import Mathlib.Data.List.Nodup
import Mathlib.Data.List.TakeWhile
import TruthTable.Token

/-!
# The lexemes of parts of a text

Words end only where a character comes that belongs to no word. So a text can be cut in front of
such a character, and the lexemes of the parts are the lexemes of the whole (`Lexeme.scan_append`).
Everything else about a longer text follows from that cut and from the lexemes of one blank, one
parenthesis and one word.

The lexemes come in the order of the text and do not overlap (`Lexeme.pairwise_scan`), so no two
tokens have the same position (`Token.position_getElem?_iff`). A text has no lexeme exactly if it is
blank (`Lexeme.scan_eq_nil_iff`).

Positions aside, cutting a text at blanks and parentheses concatenates what its parts have
(`Lexeme.raws`).
-/

namespace TruthTable

open Text (isBlank)

namespace Lexeme

/-- A word: a run of characters that belong to words, and not an empty one. -/
def IsWord (text : String) : Prop :=
  text ≠ "" ∧ ∀ c ∈ text.toList, isWordChar c = true

theorem isWordChar_of_isBlank {c : Char} (blank : isBlank c = true) : isWordChar c = false := by
  simp [isWordChar, blank]

theorem isWordChar_of_isParen {c : Char} (paren : isParen c = true) : isWordChar c = false := by
  simp [isWordChar, paren]

theorem isBlank_of_isParen {c : Char} (paren : isParen c = true) : isBlank c = false := by
  simp only [isParen, Bool.or_eq_true, beq_iff_eq] at paren
  obtain rfl | rfl := paren <;> decide

theorem isBlank_of_isWordChar {c : Char} (word : isWordChar c = true) :
    isBlank c = false ∧ isParen c = false := by
  simpa [isWordChar, and_comm] using word

/-! ## One step of the scan -/

@[simp] theorem scan_nil (position : Nat) : scan position [] = [] := by
  rw [scan]

theorem scan_blank {position : Nat} {c : Char} {rest : List Char} (blank : isBlank c = true) :
    scan position (c :: rest) = scan (position + 1) rest := by
  rw [scan, if_pos blank]

theorem scan_paren {position : Nat} {c : Char} {rest : List Char} (paren : isParen c = true) :
    scan position (c :: rest) = ⟨position, String.singleton c⟩ :: scan (position + 1) rest := by
  rw [scan, if_neg (by simp [isBlank_of_isParen paren]), if_pos paren]

theorem scan_word {position : Nat} {c : Char} {rest : List Char} (word : isWordChar c = true) :
    scan position (c :: rest) =
      ⟨position, String.ofList (c :: rest.takeWhile isWordChar)⟩ ::
        scan (position + 1 + (rest.takeWhile isWordChar).length) (rest.dropWhile isWordChar) := by
  obtain ⟨blank, paren⟩ := isBlank_of_isWordChar word
  rw [scan, if_neg (by simp [blank]), if_neg (by simp [paren])]

/-! ## Cutting a text -/

/-- A run of word characters at the start of a text ends inside the text or with it. -/
private theorem run_append (text : List Char) {rest : List Char}
    (stops : ∀ c ∈ rest.head?, isWordChar c = false) :
    (text ++ rest).takeWhile isWordChar = text.takeWhile isWordChar ∧
      (text ++ rest).dropWhile isWordChar = text.dropWhile isWordChar ++ rest := by
  induction text with
  | nil => cases rest <;> simp_all
  | cons c text ih =>
    obtain ⟨taken, dropped⟩ := ih
    cases word : isWordChar c <;> simp [word, taken, dropped]

/-- A text can be cut in front of a character that belongs to no word. -/
theorem scan_append (position : Nat) (text : List Char) {rest : List Char}
    (stops : ∀ c ∈ rest.head?, isWordChar c = false) :
    scan position (text ++ rest) = scan position text ++ scan (position + text.length) rest := by
  fun_induction scan position text with
  | case1 => simp
  | case2 position c text blank ih =>
    rw [List.cons_append, scan_blank blank, ih, List.length_cons]
    congr 2
    omega
  | case3 position c text _ paren ih =>
    rw [List.cons_append, scan_paren paren, ih, List.length_cons, List.cons_append]
    congr 3
    omega
  | case4 position c text blank paren run ih =>
    have word : isWordChar c = true := by simp [isWordChar, blank, paren]
    obtain ⟨taken, dropped⟩ := run_append text stops
    rw [List.cons_append, scan_word word, taken, dropped, ih, List.cons_append]
    have lengths : run.length + (text.dropWhile isWordChar).length = text.length := by
      rw [← List.length_append, List.takeWhile_append_dropWhile]
    rw [List.length_cons]
    congr 3
    omega

/-- A blank can be cut out. -/
theorem scan_append_blank (position : Nat) (text : List Char) {c : Char} {rest : List Char}
    (blank : isBlank c = true) :
    scan position (text ++ c :: rest) =
      scan position text ++ scan (position + text.length + 1) rest := by
  rw [scan_append position text (by simpa using isWordChar_of_isBlank blank), scan_blank blank]

/-- A parenthesis can be cut out and is a lexeme. -/
theorem scan_append_paren (position : Nat) (text : List Char) {c : Char} {rest : List Char}
    (paren : isParen c = true) :
    scan position (text ++ c :: rest) =
      scan position text ++ ⟨position + text.length, String.singleton c⟩ ::
        scan (position + text.length + 1) rest := by
  rw [scan_append position text (by simpa using isWordChar_of_isParen paren), scan_paren paren]

/-- A word is one lexeme. -/
theorem scan_isWord (position : Nat) {text : String} (word : IsWord text) :
    scan position text.toList = [⟨position, text⟩] := by
  obtain ⟨nonempty, all⟩ := word
  cases chars : text.toList with
  | nil => exact absurd (String.toList_eq_nil_iff.mp chars) nonempty
  | cons c rest =>
    rw [chars] at all
    have run : rest.takeWhile isWordChar = rest := by
      rw [List.takeWhile_eq_self_iff]
      exact fun d mem => all d (List.mem_cons_of_mem c mem)
    have behind : rest.dropWhile isWordChar = [] := by
      rw [List.dropWhile_eq_nil_iff]
      exact fun d mem => all d (List.mem_cons_of_mem c mem)
    rw [scan_word (all c List.mem_cons_self), run, behind, scan_nil, ← chars, String.ofList_toList]

/-! ## What lexemes are -/

/-- A lexeme is a parenthesis or a word. -/
theorem isParen_or_isWord {position : Nat} {text : List Char} {lexeme : Lexeme}
    (mem : lexeme ∈ scan position text) :
    lexeme.raw = "(" ∨ lexeme.raw = ")" ∨ IsWord lexeme.raw := by
  fun_induction scan position text with
  | case1 => cases mem
  | case2 _ _ _ _ ih => exact ih mem
  | case3 position c text _ paren ih =>
    rcases List.mem_cons.mp mem with rfl | mem
    · simp only [isParen, Bool.or_eq_true, beq_iff_eq] at paren
      obtain rfl | rfl := paren
      · exact .inl rfl
      · exact .inr (.inl rfl)
    · exact ih mem
  | case4 position c text blank paren run ih =>
    rcases List.mem_cons.mp mem with rfl | mem
    · have word : isWordChar c = true := by simp [isWordChar, blank, paren]
      refine .inr (.inr ⟨by simp, fun d inRun => ?_⟩)
      rw [String.toList_ofList] at inRun
      rcases List.mem_cons.mp inRun with rfl | inRun
      · exact word
      · exact List.mem_takeWhile_imp inRun
    · exact ih mem

/-- A parenthesis or a word has a character. -/
theorem length_pos_of_kind {text : String} (kind : text = "(" ∨ text = ")" ∨ IsWord text) :
    0 < text.length := by
  obtain rfl | rfl | ⟨nonempty, -⟩ := kind
  · decide
  · decide
  · exact Nat.pos_of_ne_zero (mt String.length_eq_zero_iff.mp nonempty)

/-- A lexeme has a character. -/
theorem length_raw_pos {position : Nat} {text : List Char} {lexeme : Lexeme}
    (mem : lexeme ∈ scan position text) : 0 < lexeme.raw.length :=
  length_pos_of_kind (isParen_or_isWord mem)

/-- Lexemes lie inside the text. -/
theorem bounds_of_mem {position : Nat} {text : List Char} {lexeme : Lexeme}
    (mem : lexeme ∈ scan position text) :
    position ≤ lexeme.position ∧
      lexeme.position + lexeme.raw.length ≤ position + text.length := by
  fun_induction scan position text with
  | case1 => cases mem
  | case2 _ _ _ _ ih =>
    have := ih mem
    rw [List.length_cons]
    omega
  | case3 position c text _ _ ih =>
    rw [List.length_cons]
    rcases List.mem_cons.mp mem with rfl | mem
    · simp only [String.length_singleton]
      omega
    · have := ih mem
      omega
  | case4 position c text blank paren run ih =>
    have lengths : run.length + (text.dropWhile isWordChar).length = text.length := by
      rw [← List.length_append, List.takeWhile_append_dropWhile]
    rw [List.length_cons]
    rcases List.mem_cons.mp mem with rfl | mem
    · simp only [String.length_ofList, List.length_cons]
      omega
    · have := ih mem
      omega

/-- Lexemes come in the order of the text and do not overlap. -/
theorem pairwise_scan (position : Nat) (text : List Char) :
    (scan position text).Pairwise fun a b => a.position + a.raw.length ≤ b.position := by
  fun_induction scan position text with
  | case1 => exact .nil
  | case2 _ _ _ _ ih => exact ih
  | case3 position c text _ _ ih =>
    refine List.pairwise_cons.mpr ⟨fun later mem => ?_, ih⟩
    have := bounds_of_mem mem
    simp only [String.length_singleton]
    omega
  | case4 position c text _ _ run ih =>
    refine List.pairwise_cons.mpr ⟨fun later mem => ?_, ih⟩
    have := bounds_of_mem mem
    simp only [String.length_ofList, List.length_cons]
    omega

/-- A text has no lexeme exactly if all of it is blank. -/
theorem scan_eq_nil_iff {position : Nat} {text : List Char} :
    scan position text = [] ↔ text.all isBlank = true := by
  fun_induction scan position text with
  | case1 => simp
  | case2 _ _ _ blank ih => simpa [blank] using ih
  | case3 _ _ _ blank => simp [blank]
  | case4 _ _ _ blank => simp [blank]

/-! ## Raw texts -/

/-- Lexemes do not depend on where the text starts, but for their positions. -/
theorem map_raw_scan (position position' : Nat) (text : List Char) :
    (scan position text).map (·.raw) = (scan position' text).map (·.raw) := by
  fun_induction scan position text generalizing position' with
  | case1 => rw [scan_nil]
  | case2 _ _ _ blank ih => rw [scan_blank blank, ih]
  | case3 _ _ _ _ paren ih => rw [scan_paren paren, List.map_cons, List.map_cons, ih]
  | case4 _ c _ blank paren _ ih =>
    have word : isWordChar c = true := by simp [isWordChar, blank, paren]
    rw [scan_word word, List.map_cons, List.map_cons, ih]

/-- The raw texts of the lexemes of a text. -/
def raws (text : String) : List String :=
  (ofText text).map (·.raw)

theorem raws_isWord {text : String} (word : IsWord text) : raws text = [text] := by
  rw [raws, ofText, scan_isWord 0 word, List.map_singleton]

theorem raws_append_blank (before after : String) :
    raws (before ++ " " ++ after) = raws before ++ raws after := by
  have chars : (before ++ " " ++ after).toList = before.toList ++ ' ' :: after.toList := by
    simp
  rw [raws, ofText, chars, scan_append_blank _ _ (by decide), List.map_append,
    map_raw_scan _ 0 after.toList]
  rfl

theorem raws_enclose (text : String) : raws ("(" ++ text ++ ")") = "(" :: (raws text ++ [")"]) := by
  have chars : ("(" ++ text ++ ")").toList = '(' :: (text.toList ++ [')']) := by
    simp
  rw [raws, ofText, chars, scan_paren (by decide), scan_append_paren _ _ (by decide), scan_nil,
    List.map_cons, List.map_append, map_raw_scan _ 0 text.toList]
  rfl

end Lexeme

namespace Token

/-- Every token of a text is a lexeme of it, was typed, and has the kind of its raw text. -/
theorem mem_ofText {text : String} {token : Token} (mem : token ∈ ofText text) :
    ∃ lexeme ∈ Lexeme.ofText text, token = typed lexeme.position lexeme.raw := by
  obtain ⟨lexeme, inText, rfl⟩ := List.mem_map.mp mem
  exact ⟨lexeme, inText, rfl⟩

theorem implicit_of_mem_ofText {text : String} {token : Token} (mem : token ∈ ofText text) :
    token.implicit = false := by
  obtain ⟨lexeme, -, rfl⟩ := mem_ofText mem
  rfl

theorem kind_of_mem_ofText {text : String} {token : Token} (mem : token ∈ ofText text) :
    token.kind = Kind.ofText token.raw := by
  obtain ⟨lexeme, -, rfl⟩ := mem_ofText mem
  rfl

theorem map_raw_ofText (text : String) : (ofText text).map (·.raw) = Lexeme.raws text := by
  rw [ofText, List.map_map]
  rfl

/-- The positions of the tokens of a text increase. -/
theorem pairwise_position_ofText (text : String) :
    (ofText text).Pairwise fun a b => a.position < b.position := by
  refine List.pairwise_map.mpr ((Lexeme.pairwise_scan 0 text.toList).imp_of_mem ?_)
  intro a b memA memB apart
  have := Lexeme.length_raw_pos memA
  simp only [typed]
  omega

theorem nodup_position_ofText (text : String) : ((ofText text).map (·.position)).Nodup :=
  List.pairwise_map.mpr ((pairwise_position_ofText text).imp fun apart => Int.ne_of_lt apart)

theorem eq_of_position_eq {text : String} {token other : Token} (mem : token ∈ ofText text)
    (mem' : other ∈ ofText text) (same : other.position = token.position) : other = token :=
  List.inj_on_of_nodup_map (nodup_position_ofText text) mem' mem same

/-- No other token of a text has the position of a token. -/
theorem position_getElem?_iff {text : String} {before after : List Token} {token : Token}
    (split : ofText text = before ++ token :: after) {i : Nat} :
    (ofText text)[i]?.map (·.position) = some token.position ↔ i = before.length := by
  have here : ((ofText text).map (·.position))[before.length]? = some token.position := by
    rw [List.getElem?_map, split, List.getElem?_append_right (Nat.le_refl _), Nat.sub_self]
    rfl
  have inside : before.length < ((ofText text).map (·.position)).length := by
    simp [split]
  rw [← List.getElem?_map, ← here, eq_comm,
    List.getElem?_inj inside (nodup_position_ofText text), eq_comm]

/-- A text has no tokens exactly if all of it is blank. -/
theorem ofText_eq_nil_iff {text : String} : ofText text = [] ↔ text.toList.all isBlank = true := by
  rw [ofText, List.map_eq_nil_iff, Lexeme.ofText, Lexeme.scan_eq_nil_iff]

end Token

end TruthTable
