import TruthTable.Proofs.Arena.Shares
import TruthTable.Proofs.Formula.WellSpelled

/-!
# The printed formula

A worksheet prints one text for each node, every text with its share of the parentheses, and single
spaces between them. Put together, the shares are exactly the pairs of the grammar: each connective
stands in one pair around itself and its operands (`spell_ofFormula`). The proof goes along the
tree for any demand: what a formula must carry on its left edge stands in front of it and what it
must carry on its right edge stands behind it (`intercalate_pieces`).

The nodes may be spelled by any function of their formulas. `Worksheet.print` spells them as they
were written, and the header of a table by glyphs.
-/

namespace TruthTable

/-! ## Parentheses around a text -/

namespace Text

@[simp] theorem repeated_zero (c : Char) : repeated 0 c = "" := rfl

theorem repeated_one (c : Char) : repeated 1 c = String.singleton c := rfl

theorem repeated_add (m n : Nat) (c : Char) :
    repeated (m + n) c = repeated m c ++ repeated n c := by
  rw [repeated, List.replicate_add, String.ofList_append]
  rfl

end Text

/-- A signed count puts opening parentheses in front of a text or closing ones behind it. -/
theorem parenthesize_eq (count : Int) (text : String) :
    parenthesize count text =
      Text.repeated (-count).toNat '(' ++ text ++ Text.repeated count.toNat ')' := by
  unfold parenthesize
  by_cases below : count < 0
  · have front : count.natAbs = (-count).toNat := by omega
    have behind : count.toNat = 0 := by omega
    rw [if_pos below, front, behind, Text.repeated_zero, String.append_empty]
  · have front : (-count).toNat = 0 := by omega
    have behind : count.natAbs = count.toNat := by omega
    rw [if_neg below, front, behind, Text.repeated_zero, String.empty_append]

namespace Formula

/-! ## Along the tree -/

variable (word : Formula → String)

/-- The text of a formula whose roots are spelled by `word`: a pair of parentheses for each
connective of two operands, and single spaces. -/
def spelledOut : Formula → String
  | .symbol name => word (.symbol name)
  | .constant value => word (.constant value)
  | .not spelling operand => word (.not spelling operand) ++ " " ++ operand.spelledOut
  | .binary op spelling left right =>
    "(" ++ (left.spelledOut ++ " " ++ word (.binary op spelling left right) ++ " " ++
      right.spelledOut) ++ ")"

/-- The texts of all roots in reading order, each with its share of the parentheses. -/
def pieces (demand : Int) (formula : Formula) : List String :=
  List.zipWith (fun count part => parenthesize count (word part)) (formula.shares demand)
    formula.subformulas

theorem pieces_symbol (demand : Int) (name : String) :
    (Formula.symbol name).pieces word demand = [parenthesize demand (word (.symbol name))] :=
  rfl

theorem pieces_constant (demand : Int) (value : Bool) :
    (Formula.constant value).pieces word demand = [parenthesize demand (word (.constant value))] :=
  rfl

theorem pieces_not (demand : Int) (spelling : String) (operand : Formula) :
    (Formula.not spelling operand).pieces word demand =
      parenthesize (min demand 0) (word (.not spelling operand)) ::
        operand.pieces word (max demand 0) :=
  rfl

theorem pieces_binary (demand : Int) (op : BinaryOp) (spelling : String) (left right : Formula) :
    (Formula.binary op spelling left right).pieces word demand =
      left.pieces word (min demand 0 - 1) ++
        parenthesize 0 (word (.binary op spelling left right)) ::
          right.pieces word (max demand 0 + 1) := by
  rw [pieces, shares, subformulas, List.zipWith_append (length_shares _ _)]
  rfl

theorem pieces_ne_nil (demand : Int) (formula : Formula) : formula.pieces word demand ≠ [] := by
  cases formula <;> simp [pieces_symbol, pieces_constant, pieces_not, pieces_binary]

/-- In a row, the texts of a formula that must carry `demand` spell it with these parentheses
outside. -/
theorem intercalate_pieces (demand : Int) (formula : Formula) :
    " ".intercalate (formula.pieces word demand) =
      Text.repeated (-demand).toNat '(' ++ formula.spelledOut word ++
        Text.repeated demand.toNat ')' := by
  induction formula generalizing demand with
  | symbol name =>
    rw [pieces_symbol, String.intercalate_singleton, parenthesize_eq, spelledOut]
  | constant value =>
    rw [pieces_constant, String.intercalate_singleton, parenthesize_eq, spelledOut]
  | not spelling operand ih =>
    -- The sign has the front to itself, the operand has the end.
    have signFront : (-min demand 0).toNat = (-demand).toNat := by omega
    have signEnd : (min demand 0).toNat = 0 := by omega
    have operandFront : (-max demand 0).toNat = 0 := by omega
    have operandEnd : (max demand 0).toNat = demand.toNat := by omega
    rw [pieces_not, String.intercalate_cons_of_ne_nil (pieces_ne_nil word _ _), ih, parenthesize_eq,
      signFront, signEnd, operandFront, operandEnd, spelledOut]
    simp only [Text.repeated_zero, String.append_empty, String.empty_append, String.append_assoc]
  | binary op spelling left right ihLeft ihRight =>
    -- The operands have one parenthesis more on either edge: the pair of the connective.
    have leftFront : (-(min demand 0 - 1)).toNat = (-demand).toNat + 1 := by omega
    have leftEnd : (min demand 0 - 1).toNat = 0 := by omega
    have rightFront : (-(max demand 0 + 1)).toNat = 0 := by omega
    have rightEnd : (max demand 0 + 1).toNat = 1 + demand.toNat := by omega
    rw [pieces_binary, String.intercalate_append_of_ne_nil (pieces_ne_nil word _ _) (by simp),
      String.intercalate_cons_of_ne_nil (pieces_ne_nil word _ _), ihLeft, ihRight, parenthesize_eq,
      leftFront, leftEnd, rightFront, rightEnd, Text.repeated_add, Text.repeated_add, spelledOut]
    simp only [Int.neg_zero, Int.toNat_zero, Text.repeated_zero, Text.repeated_one,
      String.append_empty, String.empty_append, String.append_assoc]
    rfl

theorem intercalate_pieces_zero (formula : Formula) :
    " ".intercalate (formula.pieces word 0) = formula.spelledOut word := by
  rw [intercalate_pieces]
  simp only [Int.neg_zero, Int.toNat_zero, Text.repeated_zero, String.empty_append,
    String.append_empty]

/-! ## The lexemes of the text -/

/-- The raw texts of the tokens that spell a formula with `word`. -/
def lexemes : Formula → List String
  | .symbol name => [word (.symbol name)]
  | .constant value => [word (.constant value)]
  | .not spelling operand => word (.not spelling operand) :: operand.lexemes
  | .binary op spelling left right =>
    "(" :: (left.lexemes ++ word (.binary op spelling left right) :: (right.lexemes ++ [")"]))

/-- Spelled out by words, a formula has one lexeme for each root and each parenthesis. -/
theorem raws_spelledOut {word : Formula → String} {formula : Formula}
    (words : ∀ part ∈ formula.subformulas, Lexeme.IsWord (word part)) :
    Lexeme.raws (formula.spelledOut word) = formula.lexemes word := by
  induction formula with
  | symbol name => exact Lexeme.raws_isWord (words _ (List.mem_singleton_self _))
  | constant value => exact Lexeme.raws_isWord (words _ (List.mem_singleton_self _))
  | not spelling operand ih =>
    rw [subformulas, List.forall_mem_cons] at words
    obtain ⟨sign, operandWords⟩ := words
    rw [spelledOut, Lexeme.raws_append_blank, Lexeme.raws_isWord sign, ih operandWords, lexemes,
      List.singleton_append]
  | binary op spelling left right ihLeft ihRight =>
    rw [subformulas, List.forall_mem_append, List.forall_mem_cons] at words
    obtain ⟨leftWords, sign, rightWords⟩ := words
    rw [spelledOut, Lexeme.raws_enclose, Lexeme.raws_append_blank,
      Lexeme.raws_append_blank, Lexeme.raws_isWord sign, ihLeft leftWords, ihRight rightWords,
      lexemes]
    simp only [List.append_assoc, List.cons_append, List.nil_append]

end Formula

/-! ## The printed worksheet -/

/-- A place has the node of its formula, but for the links. -/
theorem Arena.map_node_formulaAt (arena : Arena) (i : Fin arena.size) :
    (arena.node i).map (fun _ => ()) = ((arena.formulaAt i).node 0).map (fun _ => ()) := by
  cases h : arena.node i with
  | symbol name => rw [formulaAt_symbol h]; rfl
  | constant value => rw [formulaAt_constant h]; rfl
  | not spelling operand => rw [formulaAt_not h]; rfl
  | binary op spelling left right => rw [formulaAt_binary h]; rfl

theorem Node.written_map {Link Target : Type} (f : Link → Target) (node : Node Link) :
    (node.map f).written = node.written := by
  cases node with
  | constant value => cases value <;> rfl
  | _ => rfl

namespace Worksheet

/-- The texts of the nodes of a formula are those of its roots, with the pairs of the grammar. -/
theorem spell_ofFormula {word : Formula → String} {formula : Formula}
    {text : Fin formula.arena.size → String}
    (same : ∀ i, text i = word (formula.arena.formulaAt i)) :
    (ofFormula formula).spell text = formula.pieces word 0 := by
  show (formula.arena.readingOrder formula.rootPlace).map
    (fun i => parenthesize formula.arena.parenCounts[i] (text i)) = _
  rw [Formula.pieces, ← formula.map_parenCounts, ← formula.map_formulaAt_readingOrder_root,
    List.zipWith_map, List.zipWith_self]
  simp only [same]

/-- A worksheet prints its formula with the words that it was written with. -/
theorem print_ofFormula (formula : Formula) :
    (ofFormula formula).print = formula.spelledOut Formula.written := by
  have same (i : Fin formula.arena.size) :
      (formula.arena.node i).written = (formula.arena.formulaAt i).written := by
    rw [← Node.written_map fun _ => (), formula.arena.map_node_formulaAt, Node.written_map]
    rfl
  have spelled : (ofFormula formula).words = formula.pieces Formula.written 0 :=
    spell_ofFormula same
  rw [print, spelled, Formula.intercalate_pieces_zero]

end Worksheet

end TruthTable
