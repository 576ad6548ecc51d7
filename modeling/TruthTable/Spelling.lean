import TruthTable.Connective

/-!
# Spellings

Each connective can be written in several ways: with ASCII operators, as a word, as a Unicode
glyph or as a LaTeX command. The table lists every accepted way together with the glyph that
shows it, one for LaTeX and one for plain text. A text means a connective only if it is exactly a
spelling of the table.

A LaTeX command is shown in LaTeX as itself; any other spelling takes the command of its family.
Single and double arrows are families of their own, and so are the two signs for exclusive or.
-/

namespace TruthTable

/-- One accepted way to write a connective, and the glyphs that show it. -/
structure Spelling where
  text : String
  connective : Connective
  latex : String
  unicode : String
  deriving DecidableEq, Repr

namespace Spelling

/-- Spellings that share their connective and their glyphs. -/
def family (connective : Connective) (latex unicode : String) (texts : List String) :
    List Spelling :=
  texts.map fun text => ⟨text, connective, latex, unicode⟩

/-- Every accepted spelling. -/
def table : List Spelling :=
  family (.constant true) "\\top" "⊤" ["1", "TRUE", "True", "true", "\\top", "⊤"] ++
  family (.constant false) "\\bot" "⊥" ["0", "FALSE", "False", "false", "\\bot", "⊥"] ++
  family .not "\\lnot" "¬" ["!", "~", "¬", "NOT", "not", "\\lnot"] ++
  family .not "\\neg" "¬" ["\\neg"] ++
  family (.binary .and) "\\land" "∧" ["&", "&&", "∧", "AND", "and", "\\land"] ++
  family (.binary .and) "\\wedge" "∧" ["\\wedge"] ++
  family (.binary .or) "\\lor" "∨" ["|", "||", "∨", "OR", "or", "\\lor"] ++
  family (.binary .or) "\\vee" "∨" ["\\vee"] ++
  family (.binary .implies) "\\to" "→" ["->", "→", "IMPLIES", "implies", "\\to"] ++
  family (.binary .implies) "\\rightarrow" "→" ["\\rightarrow"] ++
  family (.binary .implies) "\\Rightarrow" "⇒" ["=>", "⇒", "\\Rightarrow"] ++
  family (.binary .implies) "\\implies" "⇒" ["\\implies"] ++
  family (.binary .iff) "\\leftrightarrow" "↔" ["<->", "↔", "IFF", "iff", "\\leftrightarrow"] ++
  family (.binary .iff) "\\Leftrightarrow" "⇔" ["<=>", "⇔", "\\Leftrightarrow"] ++
  family (.binary .iff) "\\iff" "⇔" ["\\iff"] ++
  family (.binary .nand) "\\uparrow" "↑" ["NAND", "nand", "↑", "\\uparrow"] ++
  family (.binary .nand) "\\mid" "↑" ["\\mid"] ++
  family (.binary .nor) "\\downarrow" "↓" ["NOR", "nor", "↓", "\\downarrow"] ++
  family (.binary .xor) "\\oplus" "⊕" ["^", "XOR", "xor", "⊕", "\\oplus"] ++
  family (.binary .xor) "\\veebar" "⊻" ["⊻", "\\veebar"]

/-- The entry of a text, if it is a spelling. -/
def find? (text : String) : Option Spelling :=
  table.find? (·.text == text)

end Spelling

/-- The notations in which a formula and its table can be shown. -/
inductive Format where
  | latex
  | plain
  deriving DecidableEq, Repr

/-- The glyph that shows a spelling. A text that is no spelling is shown as it is. -/
def Format.glyph (format : Format) (text : String) : String :=
  match Spelling.find? text with
  | none => text
  | some spelling =>
    match format with
    | .latex => spelling.latex
    | .plain => spelling.unicode

end TruthTable
