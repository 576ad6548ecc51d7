import TruthTable.Proofs.Text.ReadingBack
import TruthTable.Proofs.Worksheet.Freshness
import TruthTable.Proofs.Worksheet.Header
import TruthTable.Proofs.Worksheet.RowCells

/-!
# The texts of the cells

How a table can be read depends on the blanks in its cells. Parentheses and the glyphs of the
spelling table have none. So the header has none if the names and the spellings of the formula
have none, and no line feeds if these have no line feeds (`Worksheet.all_header`). A row has none
if the texts for the truth values have none, since it has no other texts (`Worksheet.mem_row`).

The header and every row of a table have a cell for each symbol and each node
(`Worksheet.length_header`, `Worksheet.length_row`).
-/

namespace TruthTable

section

variable {P : Char → Prop}

theorem all_parenthesize (opening : P '(') (closing : P ')') {text : String}
    (each : Text.All P text) (count : Int) : Text.All P (parenthesize count text) := by
  rw [parenthesize_eq]
  exact Text.all_append.mpr
    ⟨Text.all_append.mpr ⟨Text.all_repeated opening _, each⟩, Text.all_repeated closing _⟩

/-- Spellings have visible characters only. -/
theorem Formula.all_of_spells (visible : ∀ c, Text.isBlank c = false → P c) {text : String}
    {connective : Connective} (spells : Spells text connective) : Text.All P text := by
  obtain ⟨spelling, found, -⟩ := Option.map_eq_some_iff.mp spells
  intro c mem
  exact visible c (Lexeme.isBlank_of_isWordChar ((Spelling.isWord_of_find? found).2 c mem)).1

/-- A glyph is a spelling or the text itself. -/
theorem Format.all_glyph (visible : ∀ c, Text.isBlank c = false → P c) {text : String}
    (each : Text.All P text) (format : Format) : Text.All P (format.glyph text) := by
  cases found : Spelling.find? text with
  | none => rwa [glyph, found]
  | some spelling =>
    exact Formula.all_of_spells visible
      (Spelling.spells_glyph (Option.map_eq_some_iff.mpr ⟨spelling, found, rfl⟩) format)

end

namespace Formula

variable {formula : Formula}

/-- No name and no spelling in the formula has a blank. The words for the truth constants never
have one. -/
def Unbroken (formula : Formula) : Prop :=
  ∀ part ∈ formula.subformulas, Text.Unbroken part.written

instance : DecidablePred Unbroken := fun formula =>
  List.decidableBAll (fun part : Formula => Text.Unbroken part.written) formula.subformulas

section

variable {P : Char → Prop}

/-- What holds of the names and spellings of a formula holds of its names. -/
theorem all_of_mem_names (each : ∀ part ∈ formula.subformulas, Text.All P part.written)
    {name : String} (occurs : name ∈ formula.names) : Text.All P name := by
  induction formula with
  | symbol other =>
    cases List.mem_singleton.mp occurs
    exact each _ (List.mem_singleton_self _)
  | constant value => cases occurs
  | not spelling operand ih => exact ih (List.forall_mem_cons.mp each).2 occurs
  | binary op spelling left right ihLeft ihRight =>
    rw [subformulas, List.forall_mem_append, List.forall_mem_cons] at each
    obtain ⟨ofLeft, -, ofRight⟩ := each
    exact (List.mem_append.mp occurs).elim (ihLeft ofLeft) (ihRight ofRight)

theorem all_shown (visible : ∀ c, Text.isBlank c = false → P c)
    (each : Text.All P formula.written) (format : Format) :
    Text.All P (formula.shown format) := by
  cases formula with
  | symbol name => exact each
  | constant value => exact all_of_spells visible (spells_shown_constant value format)
  | not spelling operand | binary op spelling left right =>
    exact format.all_glyph visible each

end

theorem length_pieces (word : Formula → String) (demand : Int) (formula : Formula) :
    (formula.pieces word demand).length = formula.size := by
  rw [pieces, List.length_zipWith, length_shares, Nat.min_self, length_subformulas]

/-- A piece is the text of a root with parentheses around it. -/
theorem mem_pieces {word : Formula → String} {demand : Int} {cell : String}
    (mem : cell ∈ formula.pieces word demand) :
    ∃ count, ∃ part ∈ formula.subformulas, cell = parenthesize count (word part) := by
  rw [pieces, ← List.map_uncurry_zip_eq_zipWith] at mem
  obtain ⟨⟨count, part⟩, zipped, rfl⟩ := List.mem_map.mp mem
  exact ⟨count, part, (List.of_mem_zip zipped).2, rfl⟩

end Formula

/-- Neither text for a truth value has a blank. -/
def Options.Unbroken (options : Options) : Prop :=
  ∀ value, Text.Unbroken (options.display value)

instance : DecidablePred Options.Unbroken := fun options =>
  inferInstanceAs (Decidable (∀ value, Text.Unbroken (options.display value)))

namespace Worksheet

variable {formula : Formula}

theorem length_header (formula : Formula) (format : Format) :
    ((ofFormula formula).header format).length = formula.symbols.length + formula.size := by
  rw [header_ofFormula, List.length_append, Formula.length_pieces]

/-- What holds of all visible characters, and of names and spellings, holds of the header. -/
theorem all_header {P : Char → Prop} (visible : ∀ c, Text.isBlank c = false → P c)
    (each : ∀ part ∈ formula.subformulas, Text.All P part.written) (format : Format) :
    ∀ cell ∈ (ofFormula formula).header format, Text.All P cell := by
  rw [header_ofFormula, List.forall_mem_append]
  refine ⟨fun name mem => Formula.all_of_mem_names each (Formula.mem_symbols.mp mem),
    fun cell mem => ?_⟩
  obtain ⟨count, part, isPart, rfl⟩ := Formula.mem_pieces mem
  exact all_parenthesize (visible _ (by decide)) (visible _ (by decide))
    (Formula.all_shown visible (each part isPart) format) count

theorem length_row (truth : Vector Bool formula.arena.size) (options : Options) (row : UInt64) :
    ((ofTruth formula truth).row options row).1.length = formula.symbols.length + formula.size := by
  refine (congrArg List.length (row_fst_ofFormula formula truth options row)).trans ?_
  rw [List.length_append, List.length_map, List.length_map, List.length_range,
    formula.length_subformulas]

/-- A cell of a row is the text for a truth value. -/
theorem mem_row {truth : Vector Bool formula.arena.size} {options : Options} {row : UInt64}
    {cell : String} (mem : cell ∈ ((ofTruth formula truth).row options row).1) :
    ∃ value, cell = options.display value := by
  have cells := row_fst_ofFormula formula truth options row
  rcases List.mem_append.mp (cells ▸ mem) with ofSymbol | ofNode
  · obtain ⟨column, -, rfl⟩ := List.mem_map.mp ofSymbol
    exact ⟨_, rfl⟩
  · obtain ⟨part, -, rfl⟩ := List.mem_map.mp ofNode
    exact ⟨_, rfl⟩

/-! ## The cells of the table -/

theorem length_rows_freshGrid (formula : Formula) (options : Options) :
    (freshGrid formula options).rows.length = 2 ^ formula.symbols.length :=
  length_rowCells ..

theorem getElem?_rows_freshGrid (truth : Vector Bool formula.arena.size) (options : Options)
    {r : Nat} (inside : r < 2 ^ formula.symbols.length) :
    (freshGrid formula options).rows[r]? =
      some ((ofTruth formula truth).row options (UInt64.ofNat r)).1 := by
  rw [row_ofTruth]
  exact getElem?_rowCells inside

theorem unbroken_freshGrid (unbroken : formula.Unbroken) {options : Options}
    (values : options.Unbroken) :
    (∀ cell ∈ (freshGrid formula options).header, Text.Unbroken cell) ∧
      ∀ cells ∈ (freshGrid formula options).rows, ∀ cell ∈ cells, Text.Unbroken cell := by
  refine ⟨all_header (fun _ visible => visible) unbroken _, fun cells mem cell inRow => ?_⟩
  obtain ⟨r, -, rfl⟩ := List.mem_map.mp mem
  obtain ⟨value, rfl⟩ := mem_row inRow
  exact values value

end Worksheet

end TruthTable
