import Mathlib.Data.List.TakeWhile
import TruthTable.Text

/-!
# Reading texts back

A table is written by putting texts together: cells into lines, lines into one text, and a cell
into the middle of its column. Each of these has a way back. Texts that were joined are split again,
if the separator starts with a character that none of them has (`Text.split_intercalate`); so are
lines without line feeds (`split_ofLines`). A text without blanks is what is left of its column
when the blanks around it are gone (`trim_centre`). Blanks that were cut off the end of a line were
spaces, and spaces fill the line up again (`padEnd_trimEnd`).
-/

namespace TruthTable.Text

/-! ## What holds of all characters -/

/-- Whether something holds of all characters of a text. -/
def All (P : Char → Prop) (text : String) : Prop :=
  ∀ c ∈ text.toList, P c

section

variable {P : Char → Prop}

instance [DecidablePred P] : DecidablePred (All P) := fun text =>
  List.decidableBAll P text.toList

theorem all_append {before after : String} :
    All P (before ++ after) ↔ All P before ∧ All P after := by
  rw [All, String.toList_append, List.forall_mem_append, All, All]

theorem all_repeated {c : Char} (holds : P c) (count : Nat) : All P (repeated count c) := by
  rw [All, toList_repeated]
  intro other mem
  rwa [List.eq_of_mem_replicate mem]

theorem all_centre {text : String} (space : P ' ') (each : All P text) (width : Nat) :
    All P (centre width text) :=
  all_append.mpr ⟨all_append.mpr ⟨all_repeated space _, each⟩, all_repeated space _⟩

theorem all_intercalate {separator : String} {texts : List String} (between : All P separator)
    (each : ∀ text ∈ texts, All P text) : All P (separator.intercalate texts) := by
  induction texts with
  | nil => exact fun _ mem => absurd mem List.not_mem_nil
  | cons text texts ih =>
    obtain ⟨here, later⟩ := List.forall_mem_cons.mp each
    by_cases last : texts = []
    · rwa [last, String.intercalate_singleton]
    · rw [String.intercalate_cons_of_ne_nil last]
      exact all_append.mpr ⟨all_append.mpr ⟨here, between⟩, ih later⟩

end

/-- The text has no blank. -/
def Unbroken (text : String) : Prop :=
  All (isBlank · = false) text

instance : DecidablePred Unbroken := fun text =>
  inferInstanceAs (Decidable (All (isBlank · = false) text))

/-- The text has no line feed. -/
def OneLine (text : String) : Prop :=
  All (· ≠ '\n') text

instance : DecidablePred OneLine := fun text => inferInstanceAs (Decidable (All (· ≠ '\n') text))

/-- The text has no blanks but spaces. -/
def Spaced (text : String) : Prop :=
  All (fun c => isBlank c = true → c = ' ') text

instance : DecidablePred Spaced := fun text =>
  inferInstanceAs (Decidable (All (fun c => isBlank c = true → c = ' ') text))

theorem Unbroken.ne_of_mem {text : String} (unbroken : Unbroken text) {c other : Char}
    (mem : c ∈ text.toList) (blank : isBlank other = true) : c ≠ other := by
  rintro rfl
  rw [unbroken c mem] at blank
  cases blank

theorem Unbroken.oneLine {text : String} (unbroken : Unbroken text) : OneLine text :=
  fun _ mem => unbroken.ne_of_mem mem (by decide)

theorem Unbroken.spaced {text : String} (unbroken : Unbroken text) : Spaced text :=
  fun _ mem blank => absurd rfl (unbroken.ne_of_mem mem blank)

/-! ## Splitting at a separator -/

/-- The parts of some characters between the occurrences of a separator, from the left. The first
`pending` characters still belong to a separator that was found. -/
def splitFrom (separator : List Char) : Nat → List Char → List (List Char)
  | _, [] => [[]]
  | pending + 1, _ :: rest => splitFrom separator pending rest
  | 0, c :: rest =>
    if separator.isPrefixOf (c :: rest) then
      [] :: splitFrom separator (separator.length - 1) rest
    else (splitFrom separator 0 rest).modifyHead (c :: ·)

/-- The parts of a text between the occurrences of a separator, from the left. -/
def split (separator text : String) : List String :=
  (splitFrom separator.toList 0 text.toList).map String.ofList

section

variable {first : Char} {more : List Char}

theorem splitFrom_pending (separator passed rest : List Char) :
    splitFrom separator passed.length (passed ++ rest) = splitFrom separator 0 rest := by
  induction passed with
  | nil => rfl
  | cons c passed ih => exact ih

theorem splitFrom_separator (rest : List Char) :
    splitFrom (first :: more) 0 (first :: more ++ rest) =
      [] :: splitFrom (first :: more) 0 rest := by
  have found : (first :: more).isPrefixOf (first :: more ++ rest) = true :=
    List.isPrefixOf_iff_prefix.mpr (List.prefix_append ..)
  rw [List.cons_append] at found ⊢
  rw [splitFrom, if_pos found]
  exact congrArg ([] :: ·) (splitFrom_pending _ more rest)

/-- No separator starts inside a part that does not have its first character. -/
theorem splitFrom_append {part : List Char} (absent : first ∉ part) (rest : List Char) :
    splitFrom (first :: more) 0 (part ++ rest) =
      (splitFrom (first :: more) 0 rest).modifyHead (part ++ ·) := by
  induction part with
  | nil => exact (congrFun List.modifyHead_id _).symm
  | cons c part ih =>
    obtain ⟨other, absent⟩ := not_or.mp (List.mem_cons.not.mp absent)
    have here : ¬ (first :: more).isPrefixOf (c :: (part ++ rest)) = true := fun found =>
      other (List.cons_prefix_cons.mp (List.isPrefixOf_iff_prefix.mp found)).1
    rw [List.cons_append, splitFrom, if_neg here, ih absent, List.modifyHead_modifyHead]
    rfl

theorem splitFrom_intercalate {parts : List (List Char)} (absent : ∀ part ∈ parts, first ∉ part)
    (nonempty : parts ≠ []) :
    splitFrom (first :: more) 0 ((first :: more).intercalate parts) = parts := by
  induction parts with
  | nil => exact absurd rfl nonempty
  | cons part parts ih =>
    obtain ⟨here, later⟩ := List.forall_mem_cons.mp absent
    cases parts with
    | nil =>
      rw [List.intercalate_singleton, ← List.append_nil part, splitFrom_append here, splitFrom]
      rfl
    | cons next parts =>
      rw [List.intercalate_cons_cons, List.append_assoc, splitFrom_append here,
        splitFrom_separator, ih later (List.cons_ne_nil _ _), List.modifyHead_cons,
        List.append_nil]

/-- Texts that do not have the first character of the separator are found again. -/
theorem split_intercalate {separator : String} (starts : separator.toList = first :: more)
    {texts : List String} (absent : ∀ text ∈ texts, first ∉ text.toList) (nonempty : texts ≠ []) :
    split separator (separator.intercalate texts) = texts := by
  have absent : ∀ part ∈ texts.map String.toList, first ∉ part := List.forall_mem_map.mpr absent
  have nonempty : texts.map String.toList ≠ [] := fun none => nonempty (List.map_eq_nil_iff.mp none)
  rw [split, String.toList_intercalate, starts, splitFrom_intercalate absent nonempty, List.map_map]
  exact (List.map_congr_left fun text _ => String.ofList_toList).trans (List.map_id texts)

example : split " & " "a & & & b & " = ["a", "&", "b", ""] := by decide +kernel

end

/-! ## Lines -/

theorem ofLines_eq_intercalate (lines : List String) :
    ofLines lines = "\n".intercalate (lines ++ [""]) := by
  induction lines with
  | nil => rfl
  | cons line lines ih =>
    have later : lines ++ [""] ≠ [] := List.append_ne_nil_of_right_ne_nil _ (List.cons_ne_nil _ _)
    rw [List.cons_append, String.intercalate_cons_of_ne_nil later, ← ih, ofLines, List.map_cons,
      String.join_cons]
    rfl

/-- Lines without line feeds are found again. Behind the last line feed there is nothing. -/
theorem split_ofLines {lines : List String} (each : ∀ line ∈ lines, OneLine line) :
    split "\n" (ofLines lines) = lines ++ [""] := by
  have absent : ∀ line ∈ lines ++ [""], '\n' ∉ line.toList :=
    List.forall_mem_append.mpr
      ⟨fun line among mem => each line among _ mem rfl, List.forall_mem_singleton.mpr (by decide)⟩
  rw [ofLines_eq_intercalate]
  exact split_intercalate (show "\n".toList = ['\n'] from rfl) absent
    (List.append_ne_nil_of_right_ne_nil _ (List.cons_ne_nil _ _))

theorem splitFrom_ne_nil (separator : List Char) (pending : Nat) (text : List Char) :
    splitFrom separator pending text ≠ [] := by
  induction text generalizing pending with
  | nil => cases pending <;> exact List.cons_ne_nil _ _
  | cons c text ih =>
    cases pending with
    | succ pending => exact ih pending
    | zero =>
      rw [splitFrom]
      split
      · exact List.cons_ne_nil _ _
      · rw [ne_eq, List.modifyHead_eq_nil_iff]
        exact ih 0

/-- A separator of one character can be cut out. -/
theorem splitFrom_append_singleton (first : Char) (before rest : List Char) :
    splitFrom [first] 0 (before ++ first :: rest) =
      splitFrom [first] 0 before ++ splitFrom [first] 0 rest := by
  induction before with
  | nil => exact splitFrom_separator rest
  | cons c before ih =>
    by_cases here : c = first
    · rw [here, List.cons_append]
      have found (text : List Char) :
          splitFrom [first] 0 (first :: text) = [] :: splitFrom [first] 0 text :=
        splitFrom_separator text
      rw [found, found, ih, List.cons_append]
    · have absent : first ∉ [c] := fun mem => here (List.mem_singleton.mp mem).symm
      have passed (text : List Char) : splitFrom [first] 0 (c :: text) =
          (splitFrom [first] 0 text).modifyHead ([c] ++ ·) :=
        splitFrom_append absent text
      obtain ⟨part, parts, whole⟩ :=
        List.exists_cons_of_ne_nil (splitFrom_ne_nil [first] 0 before)
      rw [List.cons_append, passed, passed, ih, whole]
      rfl

/-- The first line is split by itself, if there are no line feeds in the others. -/
theorem split_ofLines_cons (header : String) {lines : List String}
    (each : ∀ line ∈ lines, OneLine line) :
    split "\n" (ofLines (header :: lines)) = split "\n" header ++ (lines ++ [""]) := by
  have parts : (ofLines (header :: lines)).toList =
      header.toList ++ '\n' :: (ofLines lines).toList := by
    rw [ofLines, List.map_cons, String.join_cons, String.toList_append, String.toList_append,
      List.append_assoc]
    rfl
  rw [← split_ofLines each, split, parts]
  exact (congrArg (List.map String.ofList)
    (splitFrom_append_singleton '\n' header.toList (ofLines lines).toList)).trans List.map_append

/-- A text without line feeds is one line. -/
theorem split_oneLine {text : String} (oneLine : OneLine text) : split "\n" text = [text] := by
  have absent : ∀ line ∈ [text], '\n' ∉ line.toList :=
    List.forall_mem_singleton.mpr fun mem => oneLine _ mem rfl
  have split := split_intercalate (show "\n".toList = ['\n'] from rfl) absent
    (List.cons_ne_nil _ _)
  rwa [String.intercalate_singleton] at split

/-! ## Blanks at the end -/

/-- The text with as many spaces behind it as it takes to have `width` characters. -/
def padEnd (width : Nat) (text : String) : String :=
  text ++ repeated (width - text.length) ' '

theorem toList_eq_trimEnd_append (text : String) :
    ∃ cut : List Char, text.toList = (trimEnd text).toList ++ cut ∧
      ∀ c ∈ cut, isBlank c = true := by
  refine ⟨(text.toList.reverse.takeWhile isBlank).reverse, ?_,
    fun c mem => List.mem_takeWhile_imp (List.mem_reverse.mp mem)⟩
  rw [trimEnd, String.toList_ofList, ← List.reverse_append, List.takeWhile_append_dropWhile,
    List.reverse_reverse]

theorem mem_of_mem_trimEnd {text : String} {c : Char} (mem : c ∈ (trimEnd text).toList) :
    c ∈ text.toList := by
  obtain ⟨cut, whole, -⟩ := toList_eq_trimEnd_append text
  rw [whole]
  exact List.mem_append_left _ mem

theorem length_trimEnd_le (text : String) : (trimEnd text).length ≤ text.length := by
  obtain ⟨cut, whole, -⟩ := toList_eq_trimEnd_append text
  rw [← String.length_toList (s := text), whole, List.length_append, String.length_toList]
  exact Nat.le_add_right ..

/-- What is left does not end with a blank. -/
theorem isBlank_of_getLast?_trimEnd {text : String} {c : Char}
    (last : (trimEnd text).toList.getLast? = some c) : isBlank c = false := by
  rw [trimEnd, String.toList_ofList, List.getLast?_reverse] at last
  have stopped := List.head?_dropWhile_not isBlank text.toList.reverse
  rwa [last] at stopped

/-- If all blanks of a text are spaces, then its end can be filled up again. -/
theorem padEnd_trimEnd {text : String} (spaced : Spaced text) :
    padEnd text.length (trimEnd text) = text := by
  obtain ⟨cut, whole, blank⟩ := toList_eq_trimEnd_append text
  have missing : text.length - (trimEnd text).length = cut.length := by
    rw [← String.length_toList (s := text), whole, List.length_append, String.length_toList,
      Nat.add_sub_cancel_left]
  have cutSpaces : List.replicate cut.length ' ' = cut := by
    refine (List.eq_replicate_of_mem fun c mem => spaced c ?_ (blank c mem)).symm
    rw [whole]
    exact List.mem_append_right _ mem
  rw [padEnd, missing, ← String.toList_inj, String.toList_append, toList_repeated, cutSpaces,
    ← whole]

/-! ## Blanks around a text -/

/-- The characters of a text from one place on. -/
def window (start width : Nat) (text : String) : String :=
  String.ofList ((text.toList.drop start).take width)

/-- The text without the blanks around it. -/
def trim (text : String) : String :=
  String.ofList ((trimEnd text).toList.dropWhile isBlank)

theorem dropWhile_spaces_append (count : Nat) (rest : List Char) :
    (List.replicate count ' ' ++ rest).dropWhile isBlank = rest.dropWhile isBlank :=
  List.dropWhile_append_of_pos fun _ mem => (List.eq_of_mem_replicate mem).symm ▸ by decide

theorem dropWhile_append_of_unbroken {part : List Char}
    (unbroken : ∀ c ∈ part, isBlank c = false) (nonempty : part ≠ []) (rest : List Char) :
    (part ++ rest).dropWhile isBlank = part ++ rest := by
  cases part with
  | nil => exact absurd rfl nonempty
  | cons c part =>
    rw [List.cons_append, List.dropWhile_cons_of_neg]
    rw [unbroken c List.mem_cons_self]
    exact Bool.false_ne_true

/-- A text without blanks stands alone in its column. -/
theorem trim_centre {text : String} (unbroken : Unbroken text) (width : Nat) :
    trim (centre width text) = text := by
  have reversed : ∀ c ∈ text.toList.reverse, isBlank c = false := fun c mem =>
    unbroken c (List.mem_reverse.mp mem)
  rw [trim, ← String.toList_inj, String.toList_ofList, trimEnd, centre]
  simp only [String.toList_append, toList_repeated, List.reverse_append, List.reverse_replicate,
    String.toList_ofList, dropWhile_spaces_append]
  -- An empty text leaves only spaces, which are all cut off at the end already.
  by_cases empty : text.toList = []
  · rw [empty, List.reverse_nil, List.nil_append, ← List.append_nil (List.replicate _ _),
      dropWhile_spaces_append]
    rfl
  · rw [dropWhile_append_of_unbroken reversed (mt List.reverse_eq_nil_iff.mp empty),
      List.reverse_append, List.reverse_replicate, List.reverse_reverse, dropWhile_spaces_append,
      ← List.append_nil text.toList, dropWhile_append_of_unbroken unbroken empty]

end TruthTable.Text
