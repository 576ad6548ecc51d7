/-!
# Texts

What is needed of texts apart from any formula: which characters separate words, how a text stands
in a column, and how lines make a text.

The characters that separate words are those with the Unicode property `White_Space`. The property
is a fixed table of twenty-five code points in ten runs. It is wider than the ASCII class (it has
the no-break space and the typographic spaces) and leaves out the zero-width characters and the
ASCII separators from U+001C to U+001F.
-/

namespace TruthTable.Text

/-! ## Blank characters -/

/-- The code points with the property `White_Space`, as runs from a first to a last one. -/
def blankRuns : List (Nat × Nat) :=
  [(0x09, 0x0D), (0x20, 0x20), (0x85, 0x85), (0xA0, 0xA0), (0x1680, 0x1680), (0x2000, 0x200A),
    (0x2028, 0x2029), (0x202F, 0x202F), (0x205F, 0x205F), (0x3000, 0x3000)]

/-- Whether a character is white space. -/
def isBlank (c : Char) : Bool :=
  blankRuns.any fun run => run.1 ≤ c.toNat && c.toNat ≤ run.2

/-- The text without the blanks at its end. -/
def trimEnd (text : String) : String :=
  String.ofList (text.toList.reverse.dropWhile isBlank).reverse

example : (blankRuns.map fun run => run.2 + 1 - run.1).sum = 25 := by decide

example : blankRuns.Pairwise fun a b => a.2 < b.1 := by decide

/-! ## Columns

Widths count characters. A text that is wider than its column is kept whole. -/

/-- One character, `count` times. -/
def repeated (count : Nat) (c : Char) : String :=
  String.ofList (List.replicate count c)

/-- The text in the middle of `width` characters. An odd blank goes to the right. -/
def centre (width : Nat) (text : String) : String :=
  let gap := width - text.length
  repeated (gap / 2) ' ' ++ text ++ repeated (gap - gap / 2) ' '

@[simp] theorem toList_repeated (count : Nat) (c : Char) :
    (repeated count c).toList = List.replicate count c :=
  String.toList_ofList

@[simp] theorem length_repeated (count : Nat) (c : Char) : (repeated count c).length = count := by
  simp [repeated]

theorem length_centre (width : Nat) (text : String) :
    (centre width text).length = max width text.length := by
  simp only [centre, String.length_append, length_repeated]
  omega

/-! ## Lines -/

/-- The text of some lines, each of them ended by a line feed. -/
def ofLines (lines : List String) : String :=
  String.join (lines.map (· ++ "\n"))

end TruthTable.Text
