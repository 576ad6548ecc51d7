import Mathlib.Data.List.Chain
import TruthTable.Proofs.Token.OnePass
import TruthTable.Proofs.Token.Tiling

/-!
# The one way to cut a text into lexemes

What the lexemes of a text are can be said without an algorithm (`Lexeme.Segments`): parentheses and
words that stand in the text where they say, in order and apart, that cover whatever is not blank
and nothing that is, and no two words of which touch.

**The law** (`Lexeme.ofText_segments`): exactly one list of lexemes is of that kind, and it is the
one that a text is read as.

*Only one.* Lexemes that cover what is not blank leave nothing but blanks between them, so they tile
the text (`Segments.tiles`). Where no two words touch, a word of a tiling ends where the scan ends
it, so the tiling is the scan (`Tiles.eq_scan`).

*At least one.* A word ends at a blank, at a parenthesis or with the text, so the scan never leaves
two words side by side (`separate_scan`); the rest is what it means to tile.
-/

namespace TruthTable.Lexeme

open Text (isBlank)

/-- The place just behind a lexeme. -/
def stop (lexeme : Lexeme) : Nat :=
  lexeme.position + lexeme.raw.length

/-- A character of the text belongs to the lexeme. -/
def Covers (lexeme : Lexeme) (place : Nat) : Prop :=
  lexeme.position ≤ place ∧ place < lexeme.stop

/-- One lexeme begins and ends in front of another. -/
def Before (one next : Lexeme) : Prop :=
  one.position < next.position ∧ one.stop ≤ next.position

/-- Two lexemes do not touch if both are words. -/
def Separate (one next : Lexeme) : Prop :=
  IsWord one.raw → IsWord next.raw → one.stop < next.position

instance : Trans Before Before Before :=
  ⟨fun one next => ⟨one.1.trans next.1, one.2.trans next.1.le⟩⟩

/-- What it is for lexemes to be those of a text. -/
structure Segments (text : String) (lexemes : List Lexeme) : Prop where
  /-- Each one is a parenthesis or a word. -/
  kinds : ∀ lexeme ∈ lexemes, lexeme.raw = "(" ∨ lexeme.raw = ")" ∨ IsWord lexeme.raw
  /-- Each one is the part of the text that it says it is. -/
  slices : ∀ lexeme ∈ lexemes, Text.window lexeme.position lexeme.raw.length text = lexeme.raw
  /-- They come in the order of the text and do not overlap. -/
  ordered : lexemes.IsChain Before
  /-- They cover all that is not blank, and nothing else. -/
  covered : ∀ place c, text.toList[place]? = some c →
    ((∃ lexeme ∈ lexemes, lexeme.Covers place) ↔ isBlank c = false)
  /-- No two words touch. -/
  apart : lexemes.IsChain Separate

/-! ## Only one -/

/-- Blanks in front of a text are skipped. -/
theorem scan_blanks {position : Nat} {gap : List Char} (blank : ∀ c ∈ gap, isBlank c = true)
    (rest : List Char) : scan position (gap ++ rest) = scan (position + gap.length) rest := by
  induction gap generalizing position with
  | nil => rfl
  | cons c gap ih =>
    obtain ⟨first, blank⟩ := List.forall_mem_cons.mp blank
    rw [List.cons_append, scan_blank first, ih blank, List.length_cons]
    congr 1
    omega

namespace Tiles

variable {position : Nat} {text : List Char} {lexemes : List Lexeme} {lexeme : Lexeme}

/-- A text whose first word does not stand at its start begins with no word character. -/
theorem isWordChar_head? (tiles : Tiles position text lexemes)
    (kinds : ∀ lexeme ∈ lexemes, lexeme.raw = "(" ∨ lexeme.raw = ")" ∨ IsWord lexeme.raw)
    (apart : ∀ next ∈ lexemes.head?, IsWord next.raw → position < next.position) :
    ∀ c ∈ text.head?, isWordChar c = false := by
  intro c first
  cases tiles with
  | blanks blank => exact isWordChar_of_isBlank (blank c (List.mem_of_head? first))
  | @lexeme _ gap rest raw lexemes blank =>
    cases gap with
    | cons d gap =>
      obtain rfl : d = c := Option.some.inj first
      exact isWordChar_of_isBlank (blank d List.mem_cons_self)
    | nil =>
      obtain rfl | rfl | word := kinds _ List.mem_cons_self
      · obtain rfl : '(' = c := Option.some.inj first
        decide
      · obtain rfl : ')' = c := Option.some.inj first
        decide
      · exact absurd (apart _ rfl word) (Nat.lt_irrefl _)

/-- A tiling no two words of which touch is what the scan finds. -/
theorem eq_scan (tiles : Tiles position text lexemes)
    (kinds : ∀ lexeme ∈ lexemes, lexeme.raw = "(" ∨ lexeme.raw = ")" ∨ IsWord lexeme.raw)
    (apart : lexemes.IsChain Separate) : lexemes = scan position text := by
  induction tiles with
  | blanks blank => exact (scan_eq_nil_iff.mpr (List.all_eq_true.mpr blank)).symm
  | @lexeme position gap rest raw lexemes blank tiles ih =>
    obtain ⟨kind, kinds⟩ := List.forall_mem_cons.mp kinds
    obtain ⟨gapped, apart⟩ := List.isChain_cons.mp apart
    have later := ih kinds apart
    rw [scan_blanks blank]
    obtain rfl | rfl | word := kind
    · show _ = scan _ ('(' :: rest)
      rw [scan_paren (by decide), later]
      rfl
    · show _ = scan _ (')' :: rest)
      rw [scan_paren (by decide), later]
      rfl
    · have stops := tiles.isWordChar_head? kinds fun next mem => gapped next mem word
      rw [scan_append _ _ stops, scan_isWord _ word, String.length_toList, ← later]
      rfl

end Tiles

namespace Segments

variable {text : String} {lexemes : List Lexeme} {lexeme : Lexeme}

/-- A lexeme begins inside the text. -/
theorem position_lt (segments : Segments text lexemes) (mem : lexeme ∈ lexemes) :
    lexeme.position < text.length := by
  have length := congrArg String.length (segments.slices lexeme mem)
  have pos := length_pos_of_kind (segments.kinds lexeme mem)
  rw [Text.window, String.length_ofList, List.length_take, List.length_drop,
    String.length_toList] at length
  omega

theorem pairwise_before (segments : Segments text lexemes) : lexemes.Pairwise Before :=
  segments.ordered.pairwise

/-- A place that no lexeme covers is blank. -/
theorem isBlank_of_not_covers (segments : Segments text lexemes) {place : Nat} {c : Char}
    (here : text.toList[place]? = some c) (bare : ∀ lexeme ∈ lexemes, ¬ lexeme.Covers place) :
    isBlank c = true := by
  by_contra solid
  obtain ⟨lexeme, mem, covers⟩ :=
    (segments.covered place c here).mpr (eq_false_of_ne_true solid)
  exact bare lexeme mem covers

/-- From a place in front of a lexeme, the text goes on with a gap, the lexeme and what is behind
it. -/
theorem exists_gap (segments : Segments text lexemes) (mem : lexeme ∈ lexemes) {place : Nat}
    (start : place ≤ lexeme.position) :
    ∃ gap, text.toList.drop place = gap ++ (lexeme.raw.toList ++ text.toList.drop lexeme.stop) ∧
      place + gap.length = lexeme.position := by
  have slice : (text.toList.drop lexeme.position).take lexeme.raw.length = lexeme.raw.toList :=
    String.toList_ofList.symm.trans (congrArg String.toList (segments.slices lexeme mem))
  have inside := segments.position_lt mem
  refine ⟨(text.toList.drop place).take (lexeme.position - place), ?_, ?_⟩
  · have behind : (text.toList.drop place).drop (lexeme.position - place) =
        lexeme.raw.toList ++ text.toList.drop lexeme.stop := by
      rw [List.drop_drop, Nat.add_sub_of_le start, ← slice, stop, ← List.drop_drop,
        List.take_append_drop]
    rw [← behind, List.take_append_drop]
  · rw [List.length_take, List.length_drop, String.length_toList]
    omega

/-- From a place on that no lexeme reaches across, the lexemes tile the text. -/
theorem tiles_drop (segments : Segments text lexemes) {front back : List Lexeme}
    (parts : lexemes = front ++ back) {place : Nat} (behind : ∀ lexeme ∈ front, lexeme.stop ≤ place)
    (ahead : ∀ lexeme ∈ back, place ≤ lexeme.position) :
    Tiles place (text.toList.drop place) back := by
  induction back generalizing front place with
  | nil =>
    refine .blanks fun c mem => ?_
    obtain ⟨i, here⟩ := List.mem_iff_getElem?.mp mem
    rw [List.getElem?_drop] at here
    refine segments.isBlank_of_not_covers here fun lexeme inFront covers => ?_
    rw [parts, List.append_nil] at inFront
    have := behind lexeme inFront
    have := covers.2
    omega
  | cons next back ih =>
    have order := segments.pairwise_before
    rw [parts, List.pairwise_append, List.pairwise_cons] at order
    obtain ⟨-, ⟨later, -⟩, -⟩ := order
    have start : place ≤ next.position := ahead next List.mem_cons_self
    have inText : next ∈ lexemes := by rw [parts]; simp
    obtain ⟨gap, split, length⟩ := segments.exists_gap inText start
    have blank : ∀ c ∈ gap, isBlank c = true := by
      intro c mem
      obtain ⟨i, inGap, rfl⟩ := List.mem_iff_getElem.mp mem
      have here : text.toList[place + i]? = some gap[i] := by
        rw [← List.getElem?_drop, split, List.getElem?_append_left inGap,
          List.getElem?_eq_getElem inGap]
      refine segments.isBlank_of_not_covers here fun lexeme inText covers => ?_
      have := covers.1
      have := covers.2
      rw [parts, List.mem_append, List.mem_cons] at inText
      obtain inFront | rfl | inBack := inText
      · have := behind lexeme inFront
        omega
      · omega
      · have := (later lexeme inBack).1
        omega
    have tail : Tiles (place + gap.length + next.raw.length) (text.toList.drop next.stop) back := by
      rw [length]
      have moved : lexemes = (front ++ [next]) ++ back := by rw [parts, List.append_cons]
      refine ih moved (fun lexeme mem => ?_) fun lexeme inBack => (later lexeme inBack).2
      rw [List.mem_append, List.mem_singleton] at mem
      obtain inFront | rfl := mem
      · have := behind lexeme inFront
        exact (this.trans start).trans (Nat.le_add_right _ _)
      · exact Nat.le_refl _
    have tiles := Tiles.lexeme blank tail
    rw [length, ← split] at tiles
    exact tiles

/-- The lexemes tile the text. -/
theorem tiles (segments : Segments text lexemes) : Tiles 0 text.toList lexemes :=
  segments.tiles_drop (List.nil_append lexemes).symm (List.forall_mem_nil _)
    fun lexeme _ => Nat.zero_le lexeme.position

/-- Only one list of lexemes is that of a text. -/
theorem eq_ofText (segments : Segments text lexemes) : lexemes = ofText text :=
  segments.tiles.eq_scan segments.kinds segments.apart

/-- Between two words in a row there is a blank. -/
theorem exists_blank (segments : Segments text lexemes) {front back : List Lexeme}
    {one next : Lexeme} (parts : lexemes = front ++ one :: next :: back) (word : IsWord one.raw)
    (word' : IsWord next.raw) :
    ∃ place c, one.stop ≤ place ∧ place < next.position ∧ text.toList[place]? = some c ∧
      isBlank c = true := by
  have apart : one.stop < next.position := by
    have apart := segments.apart
    rw [parts, List.isChain_append_cons_cons] at apart
    exact apart.2.1 word word'
  have inside : next.position < text.toList.length := by
    rw [String.length_toList]
    exact segments.position_lt (by rw [parts]; simp)
  have here := List.getElem?_eq_getElem (apart.trans inside)
  refine ⟨one.stop, _, Nat.le_refl _, apart, here,
    segments.isBlank_of_not_covers here fun lexeme inText covers => ?_⟩
  have order := segments.pairwise_before
  simp only [parts, List.pairwise_append, List.pairwise_cons, List.mem_cons] at order
  obtain ⟨-, ⟨-, later, -⟩, earlier⟩ := order
  have := covers.1
  have := covers.2
  rw [parts, List.mem_append, List.mem_cons, List.mem_cons] at inText
  obtain inFront | rfl | rfl | inBack := inText
  · have := (earlier lexeme inFront one (.inl rfl)).2
    have : one.position ≤ one.stop := Nat.le_add_right _ _
    omega
  · omega
  · omega
  · have := (later lexeme inBack).1
    omega

end Segments

/-! ## At least one -/

/-- A parenthesis is no word. -/
theorem not_isWord_of_isParen {c : Char} (paren : isParen c = true) :
    ¬ IsWord (String.singleton c) := by
  intro word
  have char := word.2 c (by rw [String.toList_singleton]; exact List.mem_singleton_self c)
  rw [isWordChar_of_isParen paren] at char
  contradiction

/-- Where a text begins with no word character, its first word does not stand at its start. -/
theorem lt_position_of_isWord {position : Nat} {text : List Char}
    (stops : ∀ c ∈ text.head?, isWordChar c = false) {next : Lexeme}
    (first : next ∈ (scan position text).head?) (word : IsWord next.raw) :
    position < next.position := by
  cases text with
  | nil => rw [scan_nil] at first; cases first
  | cons c rest =>
    have stop : isWordChar c = false := stops c rfl
    by_cases blank : isBlank c = true
    · rw [scan_blank blank] at first
      exact (bounds_of_mem (List.mem_of_head? first)).1
    · have paren : isParen c = true := by
        simpa [isWordChar, blank] using stop
      rw [scan_paren paren] at first
      obtain rfl := Option.some.inj first
      exact absurd word (not_isWord_of_isParen paren)

/-- The scan leaves no two words side by side. -/
theorem separate_scan (position : Nat) (text : List Char) :
    (scan position text).IsChain Separate := by
  fun_induction scan position text with
  | case1 => exact .nil
  | case2 _ _ _ _ ih => exact ih
  | case3 position c text _ paren ih =>
    refine List.isChain_cons.mpr ⟨fun next _ word _ => ?_, ih⟩
    exact absurd word (not_isWord_of_isParen paren)
  | case4 position c text _ _ run ih =>
    refine List.isChain_cons.mpr ⟨fun next first _ word => ?_, ih⟩
    have stops : ∀ c ∈ (text.dropWhile isWordChar).head?, isWordChar c = false := by
      intro d first
      have stop := List.head?_dropWhile_not isWordChar text
      rw [Option.mem_def.mp first] at stop
      exact stop
    have ahead := lt_position_of_isWord stops first word
    simp only [stop, String.length_ofList, List.length_cons]
    omega

/-- A character that is not blank belongs to a lexeme. -/
theorem Tiles.exists_covers {position : Nat} {text : List Char} {lexemes : List Lexeme}
    (tiles : Tiles position text lexemes) {place : Nat} {c : Char} (here : text[place]? = some c)
    (solid : isBlank c = false) : ∃ lexeme ∈ lexemes, lexeme.Covers (position + place) := by
  induction tiles generalizing place with
  | blanks blank =>
    have := blank c (List.mem_of_getElem? here)
    rw [solid] at this
    contradiction
  | @lexeme position gap rest raw lexemes blank tiles ih =>
    by_cases inGap : place < gap.length
    · rw [List.getElem?_append_left inGap] at here
      have := blank c (List.mem_of_getElem? here)
      rw [solid] at this
      contradiction
    · by_cases inRaw : place < gap.length + raw.length
      · refine ⟨_, List.mem_cons_self, ?_, ?_⟩
        · show position + gap.length ≤ position + place
          omega
        · show position + place < position + gap.length + raw.length
          omega
      · rw [List.getElem?_append_right (by omega), List.getElem?_append_right (by
          rw [String.length_toList]; omega), String.length_toList] at here
        obtain ⟨lexeme, mem, covers⟩ := ih here
        refine ⟨lexeme, List.mem_cons_of_mem _ mem, ?_⟩
        have place : position + gap.length + raw.length + (place - gap.length - raw.length) =
            position + place := by omega
        rwa [place] at covers

/-- A character of a lexeme is not blank. -/
theorem isBlank_of_covers {text : String} {lexeme : Lexeme} (mem : lexeme ∈ ofText text)
    {place : Nat} (covers : lexeme.Covers place) {c : Char}
    (here : text.toList[place]? = some c) : isBlank c = false := by
  obtain ⟨before, after, split, start⟩ := (tiles_scan 0 text.toList).exists_split mem
  have behind := covers.1
  have ahead := covers.2
  rw [stop] at ahead
  rw [split, List.getElem?_append_right (by omega), List.getElem?_append_left (by
    rw [String.length_toList]; omega)] at here
  exact isBlank_of_mem_raw mem (List.mem_of_getElem? here)

/-- The lexemes of a text are lexemes of the text. -/
theorem segments_ofText (text : String) : Segments text (ofText text) where
  kinds lexeme mem := isParen_or_isWord mem
  slices lexeme mem := by
    obtain ⟨before, after, split, start⟩ := (tiles_scan 0 text.toList).exists_split mem
    rw [Text.window, split, start, Nat.zero_add, List.drop_left, ← String.length_toList,
      List.take_left, String.ofList_toList]
  ordered := by
    refine List.Pairwise.isChain ((pairwise_scan 0 text.toList).imp_of_mem ?_)
    intro one next mem _ le
    have := length_raw_pos mem
    exact ⟨by omega, le⟩
  covered place c here := by
    constructor
    · rintro ⟨lexeme, mem, covers⟩
      exact isBlank_of_covers mem covers here
    · intro solid
      have covers := (tiles_scan 0 text.toList).exists_covers here solid
      rwa [Nat.zero_add] at covers
  apart := separate_scan 0 text.toList

/-- What the lexemes have is what the text has without its blanks. -/
theorem Tiles.flatMap_raw {position : Nat} {text : List Char} {lexemes : List Lexeme}
    (tiles : Tiles position text lexemes)
    (solid : ∀ lexeme ∈ lexemes, ∀ c ∈ lexeme.raw.toList, isBlank c = false) :
    lexemes.flatMap (fun lexeme => lexeme.raw.toList) = text.filter fun c => !isBlank c := by
  induction tiles with
  | blanks blank =>
    rw [List.flatMap_nil, eq_comm, List.filter_eq_nil_iff]
    simpa using blank
  | @lexeme position gap rest raw lexemes blank tiles ih =>
    obtain ⟨here, later⟩ := List.forall_mem_cons.mp solid
    have skipped : gap.filter (fun c => !isBlank c) = [] :=
      List.filter_eq_nil_iff.mpr (by simpa using blank)
    have kept : raw.toList.filter (fun c => !isBlank c) = raw.toList :=
      List.filter_eq_self.mpr (by simpa using here)
    rw [List.flatMap_cons, ih later, List.filter_append, List.filter_append, skipped, kept]
    rfl

/-- The raw texts of the lexemes in a row are the text without its blanks. -/
theorem join_raws (text : String) :
    String.join (raws text) = String.ofList (text.toList.filter fun c => !isBlank c) := by
  have solid : ∀ lexeme ∈ ofText text, ∀ c ∈ lexeme.raw.toList, isBlank c = false :=
    fun lexeme mem c inRaw => isBlank_of_mem_raw mem inRaw
  rw [← String.toList_inj, String.toList_join, String.toList_ofList, raws, List.flatMap_map]
  exact (tiles_scan 0 text.toList).flatMap_raw solid

/-- **The lexemes of a text** are the one way to cut it into parentheses and words that cover all
that is not blank; between two words in a row there is a blank, and the raw texts in a row are the
text without its blanks. One pass over the text finds them, and every one of its cuts in the bytes
of the text is on the boundary of characters. -/
theorem ofText_segments (text : String) :
    (∀ lexemes, Segments text lexemes ↔ lexemes = ofText text) ∧
      (∀ front one next back, ofText text = front ++ one :: next :: back → IsWord one.raw →
        IsWord next.raw → ∃ place c, one.stop ≤ place ∧ place < next.position ∧
          text.toList[place]? = some c ∧ isBlank c = true) ∧
      String.join (raws text) = String.ofList (text.toList.filter fun c => !isBlank c) ∧
      Scanner.run text = some (ofText text) := by
  refine ⟨fun lexemes => ⟨fun segments => segments.eq_ofText, ?_⟩, ?_, join_raws text,
    Scanner.run_eq text⟩
  · rintro rfl
    exact segments_ofText text
  · intro front one next back parts word word'
    exact (segments_ofText text).exists_blank parts word word'

end TruthTable.Lexeme
