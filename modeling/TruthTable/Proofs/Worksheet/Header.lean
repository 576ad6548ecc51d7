import TruthTable.Proofs.Formula.RoundTrip
import TruthTable.Proofs.Valuation.Rows

/-!
# The header of a table

Behind the symbols the header has one cell for each node, with its share of the parentheses. In a
row, with single spaces, these cells spell the formula in the notation of the table: every
connective by the glyph of its spelling. The spelling table is closed under its own glyphs, and a
glyph never changes the connective (`Spelling.spells_glyph`). So the header of a well formed formula
is read back as the same formula with other spellings (`Worksheet.parse_header`), which has the same
symbols and the same values.
-/

namespace TruthTable

/-! ## Glyphs are spellings -/

namespace Spelling

/-- The glyphs of a spelling are spellings of the same connective. -/
theorem spells_of_mem_table {spelling : Spelling} (mem : spelling ∈ table) :
    Formula.Spells spelling.latex spelling.connective ∧
      Formula.Spells spelling.unicode spelling.connective := by
  have all : table.all (fun spelling =>
      (find? spelling.latex).map (·.connective) == some spelling.connective &&
        (find? spelling.unicode).map (·.connective) == some spelling.connective) = true := by
    decide +kernel
  have here := List.all_eq_true.mp all spelling mem
  rw [Bool.and_eq_true, beq_iff_eq, beq_iff_eq] at here
  exact here

theorem spells_glyph {text : String} {connective : Connective}
    (spells : Formula.Spells text connective) (format : Format) :
    Formula.Spells (format.glyph text) connective := by
  obtain ⟨spelling, found, rfl⟩ := Option.map_eq_some_iff.mp spells
  obtain ⟨latex, unicode⟩ := spells_of_mem_table (List.mem_of_find?_eq_some found)
  rw [Format.glyph, found]
  cases format with
  | latex => exact latex
  | plain => exact unicode

end Spelling

namespace Formula

variable {formula : Formula}

/-! ## Other spellings -/

/-- The formula with another text for each spelling. Symbols keep their names. -/
def mapSpellings (f : String → String) : Formula → Formula
  | .symbol name => .symbol name
  | .constant value => .constant value
  | .not spelling operand => .not (f spelling) (operand.mapSpellings f)
  | .binary op spelling left right =>
    .binary op (f spelling) (left.mapSpellings f) (right.mapSpellings f)

theorem names_mapSpellings (f : String → String) (formula : Formula) :
    (formula.mapSpellings f).names = formula.names := by
  induction formula with
  | symbol | constant => rfl
  | not spelling operand ih => exact ih
  | binary op spelling left right ihLeft ihRight => rw [mapSpellings, names, ihLeft, ihRight, names]

/-- Spellings do not matter for the symbols. -/
theorem symbols_mapSpellings (f : String → String) (formula : Formula) :
    (formula.mapSpellings f).symbols = formula.symbols := by
  rw [symbols, names_mapSpellings, symbols]

/-- Spellings do not matter for the truth value. -/
theorem evaluate_mapSpellings (f : String → String) (formula : Formula) (valuation : Valuation) :
    (formula.mapSpellings f).evaluate valuation = formula.evaluate valuation := by
  induction formula with
  | symbol | constant => rfl
  | not spelling operand ih => rw [mapSpellings, evaluate, ih, evaluate]
  | binary op spelling left right ihLeft ihRight =>
    rw [mapSpellings, evaluate, ihLeft, ihRight, evaluate]

/-! ## The words of the header -/

/-- The root of a formula as it is shown. -/
def shown (format : Format) (formula : Formula) : String :=
  (formula.node 0).shown format

/-- Shown roots spell the formula with the glyphs of its spellings. -/
theorem respell_shown (format : Format) (formula : Formula) :
    formula.respell (shown format) = formula.mapSpellings format.glyph := by
  induction formula with
  | symbol | constant => rfl
  | not spelling operand ih =>
    rw [respell, ih]
    rfl
  | binary op spelling left right ihLeft ihRight =>
    rw [respell, ihLeft, ihRight]
    rfl

/-- A truth constant is shown by one of its spellings. -/
theorem spells_shown_constant (value : Bool) (format : Format) :
    Spells ((constant value).shown format) (.constant value) := by
  cases value with
  | true =>
    have top : Spells "\\top" (.constant true) := by decide +kernel
    exact Spelling.spells_glyph top format
  | false =>
    have bot : Spells "\\bot" (.constant false) := by decide +kernel
    exact Spelling.spells_glyph bot format

/-- A root that can be read from its text can be read from what it is shown as. -/
theorem spelledBy_shown (spelled : formula.SpelledBy formula.written) (format : Format) :
    formula.SpelledBy (formula.shown format) := by
  cases formula with
  | symbol name => exact spelled
  | constant value => exact (spelledBy_iff_spells rfl).mpr (spells_shown_constant value format)
  | not spelling operand | binary op spelling left right =>
    rw [spelledBy_iff_spells rfl] at spelled ⊢
    exact Spelling.spells_glyph spelled format

end Formula

theorem Node.shown_map {Link Target : Type} (f : Link → Target) (format : Format)
    (node : Node Link) : (node.map f).shown format = node.shown format := by
  cases node with
  | constant value => cases value <;> rfl
  | _ => rfl

namespace Worksheet

/-- The header has the symbols, and behind them the formula by its shown roots. -/
theorem header_ofFormula (formula : Formula) (format : Format) :
    (ofFormula formula).header format =
      formula.symbols ++ formula.pieces (Formula.shown format) 0 := by
  have same (i : Fin formula.arena.size) :
      (formula.arena.node i).shown format = (formula.arena.formulaAt i).shown format := by
    rw [← Node.shown_map fun _ => (), formula.arena.map_node_formulaAt, Node.shown_map]
    rfl
  exact congrArg (formula.symbols ++ ·) (spell_ofFormula same)

open Formula (parse)

/-- The header of a well formed formula spells it, and every formula that is read is well formed.
The header is the symbols followed by one cell for each node. These cells, with single spaces
between them, are read as the formula with the glyph of the format for each spelling. That formula
has the same symbols, and the same value under every valuation. -/
theorem parse_header :
    (∀ text formula, parse text = .ok (some formula) → formula.WellFormed) ∧
      ∀ formula : Formula, formula.WellFormed → ∀ format : Format, ∃ cells,
        (ofFormula formula).header format = formula.symbols ++ cells ∧
          cells.length = formula.size ∧
          parse (" ".intercalate cells) = .ok (some (formula.mapSpellings format.glyph)) ∧
          (formula.mapSpellings format.glyph).symbols = formula.symbols ∧
          ∀ valuation, (formula.mapSpellings format.glyph).evaluate valuation =
            formula.evaluate valuation := by
  refine ⟨fun text formula => Formula.wellFormed_of_parse, fun formula wellFormed format => ?_⟩
  obtain ⟨wellSpelled, below⟩ := wellFormed
  have words : ∀ part ∈ formula.subformulas, part.SpelledBy (part.shown format) :=
    fun part mem => Formula.spelledBy_shown (Formula.wellSpelled_iff.mp wellSpelled part mem) format
  refine ⟨formula.pieces (Formula.shown format) 0, header_ofFormula formula format, ?_, ?_,
    formula.symbols_mapSpellings _, formula.evaluate_mapSpellings _⟩
  · rw [Formula.pieces, List.length_zipWith, Formula.length_shares, Nat.min_self,
      formula.length_subformulas]
  · have read := Formula.parse_spelledOut words below
    rwa [Formula.respell_shown, ← Formula.intercalate_pieces_zero] at read

/-- A double arrow keeps its shape, and a digit is shown as the truth constant that it spells. -/
theorem parse_header_of_double_arrow :
    let formula : Formula :=
      .binary .xor "^" (.binary .iff "<=>" (.not "\\neg" (.symbol "b")) (.constant true))
        (.symbol "a")
    parse "(\\neg b <=> 1) ^ a" = .ok (some formula) ∧ formula.WellFormed ∧
      ∃ cells, (ofFormula formula).header .plain = ["a", "b"] ++ cells ∧ cells.length = 6 ∧
        parse (" ".intercalate cells) = .ok (some
          (.binary .xor "⊕" (.binary .iff "⇔" (.not "¬" (.symbol "b")) (.constant true))
            (.symbol "a"))) := by
  intro formula
  obtain ⟨wellFormed_of_read, spelled⟩ := parse_header
  have read : parse "(\\neg b <=> 1) ^ a" = .ok (some formula) := by decide +kernel
  have wellFormed : formula.WellFormed := wellFormed_of_read _ _ read
  obtain ⟨cells, header, length, readBack, -⟩ := spelled formula wellFormed .plain
  have symbols : formula.symbols = ["a", "b"] := by decide +kernel
  have glyphs : formula.mapSpellings (Format.plain).glyph =
      .binary .xor "⊕" (.binary .iff "⇔" (.not "¬" (.symbol "b")) (.constant true))
        (.symbol "a") := by
    decide +kernel
  rw [symbols] at header
  rw [glyphs] at readBack
  exact ⟨read, wellFormed, cells, header, length, readBack⟩

end Worksheet

end TruthTable
