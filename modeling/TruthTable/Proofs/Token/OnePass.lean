import TruthTable.Proofs.Token.Lexing

/-!
# Lexemes in one pass

A text can be cut into its lexemes in one pass over its characters, with two offsets kept side by
side: lexemes are numbered by characters, and cut out of the text by bytes (`Scanner`). A cut that
is not on the boundary of a character fails (`Text.slice?`).

**The law** (`Scanner.run_eq`): no cut fails, and the pass gives the lexemes of the text.

At every moment the text in front of the scanner is made of a part that is done and of the beginning
of a word that is not (`Scanner.behind`). One character keeps it so (`Scanner.exists_step`): a blank
or a parenthesis finishes the word, any other character makes it longer. And the lexemes of what is
done, of the word and of what is to come are the same lexemes all the time.
-/

namespace TruthTable

open Text (isBlank)

namespace Text

/-- The part of a text from one byte to another. There is none where an offset is not on the
boundary of a character, or where the second one comes first. -/
def slice? (text : String) (start stop : String.Pos.Raw) : Option String :=
  if cut : start.IsValid text ∧ stop.IsValid text ∧ start ≤ stop then
    some (text.slice (text.pos start cut.1) (text.pos stop cut.2.1) cut.2.2).copy
  else none

/-- What stands between two parts of a text is the slice from the end of the first part to the start
of the last one. -/
theorem slice?_append (before middle after : String) :
    slice? (before ++ middle ++ after) before.rawEndPos (before ++ middle).rawEndPos =
      some middle := by
  have start : before.rawEndPos.IsValid (before ++ middle ++ after) :=
    String.Pos.Raw.isValid_iff_exists_append.mpr ⟨before, middle ++ after, String.append_assoc, rfl⟩
  have stop : (before ++ middle).rawEndPos.IsValid (before ++ middle ++ after) :=
    String.Pos.Raw.isValid_iff_exists_append.mpr ⟨before ++ middle, after, rfl, rfl⟩
  obtain ⟨le, eq⟩ := String.copy_slice_eq_iff_splits.mpr
    ⟨before, after, (⟨String.append_assoc, rfl⟩ :
      ((before ++ middle ++ after).pos before.rawEndPos start).Splits before (middle ++ after)),
      (⟨rfl, rfl⟩ : ((before ++ middle ++ after).pos _ stop).Splits (before ++ middle) after)⟩
  rw [slice?, dif_pos ⟨start, stop, le⟩, eq]

example : slice? "A∧B" ⟨1⟩ ⟨4⟩ = some "∧" := by cbv

example : slice? "A∧B" ⟨1⟩ ⟨2⟩ = none := by cbv

end Text

open Lexeme (isParen isWordChar scan)

/-- What one pass over a text remembers: how many bytes and how many characters are behind it, where
the word began that is being read, and the lexemes so far. -/
structure Scanner where
  byte : String.Pos.Raw
  position : Nat
  start : Option (String.Pos.Raw × Nat)
  lexemes : List Lexeme

namespace Scanner

/-- The scanner in front of a text. -/
def first : Scanner := ⟨⟨0⟩, 0, none, []⟩

/-- Cuts the word that is being read, if there is one, in front of the byte `stop`. -/
def flush (text : String) (stop : String.Pos.Raw) (scanner : Scanner) : Option Scanner :=
  match scanner.start with
  | none => some scanner
  | some (byte, position) => do
    let raw ← Text.slice? text byte stop
    return { scanner with start := none, lexemes := scanner.lexemes ++ [⟨position, raw⟩] }

/-- Cuts the next character, which takes one byte. -/
def cutParen (text : String) (scanner : Scanner) : Option Scanner := do
  let raw ← Text.slice? text scanner.byte ⟨scanner.byte.byteIdx + 1⟩
  return { scanner with lexemes := scanner.lexemes ++ [⟨scanner.position, raw⟩] }

/-- Goes past a character. -/
def advance (scanner : Scanner) (c : Char) : Scanner :=
  { scanner with byte := scanner.byte + c, position := scanner.position + 1 }

/-- Reads a character. -/
def step (text : String) (scanner : Scanner) (c : Char) : Option Scanner := do
  if isParen c || isBlank c then
    let flushed ← scanner.flush text scanner.byte
    let cut ← if isParen c then flushed.cutParen text else some flushed
    return cut.advance c
  else
    let start := scanner.start <|> some (scanner.byte, scanner.position)
    return { scanner with start }.advance c

/-- The lexemes of a text, in one pass. -/
def run (text : String) : Option (List Lexeme) :=
  (text.toList.foldlM (step text) first >>= flush text text.rawEndPos).map (·.lexemes)

/-- The scanner behind `front` and behind `word`, the beginning of a word that is not cut yet. -/
def behind (front word : String) (lexemes : List Lexeme) : Scanner where
  byte := (front ++ word).rawEndPos
  position := (front ++ word).length
  start := if word = "" then none else some (front.rawEndPos, front.length)
  lexemes := lexemes

variable {text front word after : String} {lexemes : List Lexeme} {c : Char} {rest : List Char}

/-- Nothing is cut where no word is being read, and else the whole word is cut. -/
theorem flush_behind (lexemes : List Lexeme) (split : text = front ++ word ++ after)
    (chars : ∀ c ∈ word.toList, isWordChar c = true) :
    (behind front word lexemes).flush text (front ++ word).rawEndPos =
      some (behind (front ++ word) "" (lexemes ++ scan front.length word.toList)) := by
  unfold flush behind
  by_cases pending : word = ""
  · subst pending
    simp
  · have cut : Text.slice? text front.rawEndPos (front ++ word).rawEndPos = some word := by
      rw [split, Text.slice?_append]
    simp [pending, cut, Lexeme.scan_isWord _ ⟨pending, chars⟩]

/-- Behind a character the scanner has its bytes and one character more. -/
theorem advance_behind (c : Char) : (behind front "" lexemes).advance c =
    behind (front ++ String.singleton c) "" lexemes := by
  simp [advance, behind]

/-- A parenthesis is one byte, and that is cut out. -/
theorem cutParen_behind (split : text = front ++ String.singleton c ++ after)
    (paren : isParen c = true) :
    (behind front "" lexemes).cutParen text =
      some (behind front "" (lexemes ++ [⟨front.length, String.singleton c⟩])) := by
  have size : c.utf8Size = 1 := by
    simp only [isParen, Bool.or_eq_true, beq_iff_eq] at paren
    obtain rfl | rfl := paren <;> decide
  have stop : (⟨front.rawEndPos.byteIdx + 1⟩ : String.Pos.Raw) =
      (front ++ String.singleton c).rawEndPos := by
    simp [String.Pos.Raw.ext_iff, size]
  have cut : Text.slice? text front.rawEndPos ⟨front.rawEndPos.byteIdx + 1⟩ =
      some (String.singleton c) := by
    rw [stop, split, Text.slice?_append]
  simp only [cutParen, behind, String.append_empty, cut]
  rfl

/-- A word character makes the word longer, or begins one. -/
theorem step_word (char : isWordChar c = true) :
    step text (behind front word lexemes) c =
      some (behind front (word ++ String.singleton c) lexemes) := by
  obtain ⟨blank, paren⟩ := Lexeme.isBlank_of_isWordChar char
  rw [step, if_neg (by simp [blank, paren])]
  by_cases begins : word = "" <;>
    simp [behind, advance, begins, String.Pos.Raw.ext_iff, Nat.add_assoc]

/-- A blank finishes the word. -/
theorem step_blank (split : text = front ++ word ++ String.singleton c ++ after)
    (chars : ∀ c ∈ word.toList, isWordChar c = true) (blank : isBlank c = true) :
    step text (behind front word lexemes) c =
      some (behind (front ++ word ++ String.singleton c) ""
        (lexemes ++ scan front.length word.toList)) := by
  have paren : isParen c = false := by
    cases paren : isParen c with
    | false => rfl
    | true => rw [Lexeme.isBlank_of_isParen paren] at blank; contradiction
  have flushed := flush_behind lexemes (split.trans String.append_assoc) chars
  rw [step, if_pos (by simp [blank])]
  show (do let flushed ← flush text (front ++ word).rawEndPos _; _) = _
  rw [flushed]
  simp [paren, advance_behind]

/-- A parenthesis finishes the word and is cut out. -/
theorem step_paren (split : text = front ++ word ++ String.singleton c ++ after)
    (chars : ∀ c ∈ word.toList, isWordChar c = true) (paren : isParen c = true) :
    step text (behind front word lexemes) c =
      some (behind (front ++ word ++ String.singleton c) ""
        (lexemes ++ scan front.length word.toList ++
          [⟨(front ++ word).length, String.singleton c⟩])) := by
  have flushed := flush_behind lexemes (split.trans String.append_assoc) chars
  rw [step, if_pos (by simp [paren])]
  show (do let flushed ← flush text (front ++ word).rawEndPos _; _) = _
  rw [flushed]
  simp [paren, cutParen_behind split paren, advance_behind]

/-- **One character.** The scanner stays behind a finished part and the beginning of a word, and no
lexeme is lost. -/
theorem exists_step (lexemes : List Lexeme)
    (split : text = front ++ word ++ String.singleton c ++ after)
    (chars : ∀ c ∈ word.toList, isWordChar c = true) :
    ∃ front' word' lexemes',
      step text (behind front word lexemes) c = some (behind front' word' lexemes') ∧
        front' ++ word' = front ++ word ++ String.singleton c ∧
        (∀ c ∈ word'.toList, isWordChar c = true) ∧
        ∀ rest, lexemes' ++ scan front'.length (word'.toList ++ rest) =
          lexemes ++ scan front.length (word.toList ++ c :: rest) := by
  by_cases blank : isBlank c = true
  · refine ⟨_, _, _, step_blank split chars blank, String.append_empty, by simp, fun rest => ?_⟩
    rw [Lexeme.scan_append_blank _ _ blank]
    simp [List.append_assoc, String.length_toList]
  · by_cases paren : isParen c = true
    · refine ⟨_, _, _, step_paren split chars paren, String.append_empty, by simp, fun rest => ?_⟩
      rw [Lexeme.scan_append_paren _ _ paren]
      simp [List.append_assoc, String.length_toList]
    · have char : isWordChar c = true := by simp [isWordChar, blank, paren]
      refine ⟨_, _, _, step_word char, by rw [String.append_assoc], ?_, fun rest => ?_⟩
      · intro d mem
        rw [String.toList_append, List.mem_append, String.toList_singleton,
          List.mem_singleton] at mem
        obtain mem | rfl := mem
        · exact chars d mem
        · exact char
      · simp

/-- From a scanner behind a part of the text, the pass adds the lexemes of the rest. -/
theorem foldlM_behind (lexemes : List Lexeme) (split : text = front ++ word ++ String.ofList rest)
    (chars : ∀ c ∈ word.toList, isWordChar c = true) :
    (rest.foldlM (step text) (behind front word lexemes) >>=
        flush text text.rawEndPos).map (·.lexemes) =
      some (lexemes ++ scan front.length (word.toList ++ rest)) := by
  induction rest generalizing front word lexemes with
  | nil =>
    rw [String.ofList_nil] at split
    have flushed := flush_behind lexemes split chars
    rw [String.append_empty] at split
    rw [List.foldlM_nil, List.append_nil, split]
    rw [split] at flushed
    show (flush _ _ (behind front word lexemes)).map _ = _
    rw [flushed]
    rfl
  | cons c rest ih =>
    have cut : text = front ++ word ++ String.singleton c ++ String.ofList rest := by
      rw [split, ← List.singleton_append, String.ofList_append, ← String.append_assoc]
      rfl
    obtain ⟨front', word', lexemes', stepped, same, chars', kept⟩ :=
      exists_step lexemes cut chars
    rw [List.foldlM_cons, stepped]
    show (rest.foldlM (step text) (behind front' word' lexemes') >>= _).map _ = _
    rw [ih _ (by rw [same]; exact cut) chars', kept]

/-- **One pass gives the lexemes of a text**, and every one of its cuts is on the boundary of
characters. -/
theorem run_eq (text : String) : run text = some (Lexeme.ofText text) := by
  have whole : text = "" ++ "" ++ String.ofList text.toList := by
    rw [String.ofList_toList, String.append_empty, String.empty_append]
  exact foldlM_behind [] whole (List.forall_mem_nil _)

end Scanner

end TruthTable
