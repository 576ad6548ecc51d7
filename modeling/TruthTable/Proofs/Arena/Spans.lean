import TruthTable.Proofs.Formula.Printing

/-!
# The spans of the connectives

The span of a place is what is read from it: its reading order. A connective of two operands has one
pair of parentheses around its span, so a place should have an opening parenthesis in front of it
for each connective whose span it starts, and a closing one behind it for each connective whose span
it ends. That is what the signed count of a place says (`Formula.parenCounts_eq_spans`).

`Arena.spansWithin` counts the connectives inside one span that start or end at a place. Along the
links, a connective adds one to the count at either edge of its own span, and nothing else changes.
Handing out parentheses does the same, with what the formulas outside demand on top
(`Arena.map_balance`). No place starts one span and ends another, because a span starts and ends at
different places (`Arena.spansWithin_eq_zero_or`), so the sign of a count loses nothing.
-/

namespace TruthTable

/-- Whether this is a connective of two operands. -/
def Node.isBinary {Link : Type} : Node Link → Bool
  | .binary _ _ _ _ => true
  | _ => false

/-- The two ends of a span. -/
inductive Side where
  | first
  | last
  deriving DecidableEq, Repr

namespace Side

variable {α : Type} {side : Side} {places : List α} {x : α}

/-- The opposite end. -/
def other : Side → Side
  | first => last
  | last => first

/-- The place at this end of some places. -/
def place? : Side → List α → Option α
  | first, places => places.head?
  | last, places => places.getLast?

theorem mem_of_place? (atEnd : side.place? places = some x) : x ∈ places := by
  cases side with
  | first => exact List.mem_of_head? atEnd
  | last => exact List.mem_of_getLast? atEnd

end Side

namespace Arena

variable {arena : Arena} {i x b : Fin arena.size} {side : Side}

/-- Whether a place is a connective of two operands whose span has `x` at one end. -/
def spansTo (arena : Arena) (side : Side) (x b : Fin arena.size) : Bool :=
  (arena.node b).isBinary && decide (side.place? (arena.readingOrder b) = some x)

/-- The connectives of two operands whose span has `x` at one end. -/
def connectivesAt (arena : Arena) (side : Side) (x : Fin arena.size) : List (Fin arena.size) :=
  (List.finRange arena.size).filter (arena.spansTo side x)

/-- The number of those connectives in the span of a place. -/
def spansWithin (arena : Arena) (side : Side) (i x : Fin arena.size) : Nat :=
  (arena.readingOrder i).countP (arena.spansTo side x)

/-! ## The ends of spans -/

section Not

variable {spelling : String} {operand : arena.Later i}

theorem place?_first_not (h : arena.node i = .not spelling operand) :
    Side.first.place? (arena.readingOrder i) = some i := by
  rw [readingOrder_not h]
  rfl

theorem place?_last_not (h : arena.node i = .not spelling operand) :
    Side.last.place? (arena.readingOrder i) =
      Side.last.place? (arena.readingOrder operand.1) := by
  obtain ⟨first, rest, inOperand⟩ :=
    List.exists_cons_of_ne_nil (List.ne_nil_of_mem (mem_readingOrder_self operand.1))
  rw [readingOrder_not h, inOperand, Side.place?, Side.place?, List.getLast?_cons_cons]

end Not

section Binary

variable {op : BinaryOp} {spelling : String} {left right : arena.Later i}

/-- A connective spans from the first place of its left operand. -/
theorem place?_first_binary (h : arena.node i = .binary op spelling left right) :
    Side.first.place? (arena.readingOrder i) =
      Side.first.place? (arena.readingOrder left.1) := by
  obtain ⟨first, rest, inLeft⟩ :=
    List.exists_cons_of_ne_nil (List.ne_nil_of_mem (mem_readingOrder_self left.1))
  rw [readingOrder_binary h, inLeft]
  rfl

/-- A connective spans to the last place of its right operand. -/
theorem place?_last_binary (h : arena.node i = .binary op spelling left right) :
    Side.last.place? (arena.readingOrder i) =
      Side.last.place? (arena.readingOrder right.1) := by
  obtain ⟨first, rest, inRight⟩ :=
    List.exists_cons_of_ne_nil (List.ne_nil_of_mem (mem_readingOrder_self right.1))
  rw [readingOrder_binary h, inRight, Side.place?, Side.place?, List.getLast?_append,
    List.getLast?_cons_cons, List.getLast?_cons, Option.some_or]

end Binary

/-! ## Spans inside a span -/

/-- No span within a span ends outside it. -/
theorem spansWithin_eq_zero (outside : x ∉ arena.readingOrder i) :
    arena.spansWithin side i x = 0 := by
  rw [spansWithin, List.countP_eq_zero]
  intro b mem spans
  rw [spansTo, Bool.and_eq_true, decide_eq_true_eq] at spans
  exact outside (mem_readingOrder_trans mem (Side.mem_of_place? spans.2))

theorem spansWithin_symbol {name : String} (h : arena.node i = .symbol name) :
    arena.spansWithin side i x = 0 := by
  simp [spansWithin, readingOrder_symbol h, spansTo, h, Node.isBinary]

theorem spansWithin_constant {value : Bool} (h : arena.node i = .constant value) :
    arena.spansWithin side i x = 0 := by
  simp [spansWithin, readingOrder_constant h, spansTo, h, Node.isBinary]

theorem spansWithin_not {spelling : String} {operand : arena.Later i}
    (h : arena.node i = .not spelling operand) :
    arena.spansWithin side i x = arena.spansWithin side operand.1 x := by
  have sign : arena.spansTo side x i = false := by rw [spansTo, h]; rfl
  rw [spansWithin, readingOrder_not h, List.countP_cons, sign]
  rfl

section Binary

variable {op : BinaryOp} {spelling : String} {left right : arena.Later i}

/-- A connective adds its own span to those of its operands. -/
theorem spansWithin_binary (h : arena.node i = .binary op spelling left right) :
    arena.spansWithin side i x =
      arena.spansWithin side left.1 x + arena.spansWithin side right.1 x +
        if side.place? (arena.readingOrder i) = some x then 1 else 0 := by
  have own : arena.spansTo side x i = decide (side.place? (arena.readingOrder i) = some x) := by
    rw [spansTo, h]
    rfl
  rw [spansWithin, congrArg (List.countP _) (readingOrder_binary h), List.countP_append,
    List.countP_cons, own, ← Nat.add_assoc]
  simp only [decide_eq_true_eq]
  rfl

/-- In its left operand a connective starts one span more. -/
theorem spansWithin_binary_left (h : arena.node i = .binary op spelling left right)
    (once : (arena.readingOrder i).Nodup) (mem : x ∈ arena.readingOrder left.1) :
    arena.spansWithin .first i x = arena.spansWithin .first left.1 x +
        (if Side.first.place? (arena.readingOrder left.1) = some x then 1 else 0) ∧
      arena.spansWithin .last i x = arena.spansWithin .last left.1 x := by
  obtain ⟨-, -, -, -, apart⟩ := apart_of_nodup h once
  have notLast : Side.last.place? (arena.readingOrder right.1) ≠ some x :=
    fun atEnd => apart mem (Side.mem_of_place? atEnd)
  rw [spansWithin_binary h, spansWithin_binary h, spansWithin_eq_zero (apart mem),
    spansWithin_eq_zero (apart mem), place?_first_binary h, place?_last_binary h, if_neg notLast]
  exact ⟨rfl, rfl⟩

/-- In its right operand a connective ends one span more. -/
theorem spansWithin_binary_right (h : arena.node i = .binary op spelling left right)
    (once : (arena.readingOrder i).Nodup) (mem : x ∈ arena.readingOrder right.1) :
    arena.spansWithin .first i x = arena.spansWithin .first right.1 x ∧
      arena.spansWithin .last i x = arena.spansWithin .last right.1 x +
        if Side.last.place? (arena.readingOrder right.1) = some x then 1 else 0 := by
  obtain ⟨-, -, -, -, apart⟩ := apart_of_nodup h once
  have notMem : x ∉ arena.readingOrder left.1 := fun mem' => apart mem' mem
  have notFirst : Side.first.place? (arena.readingOrder left.1) ≠ some x :=
    fun atEnd => notMem (Side.mem_of_place? atEnd)
  rw [spansWithin_binary h, spansWithin_binary h, spansWithin_eq_zero notMem,
    spansWithin_eq_zero notMem, place?_first_binary h, place?_last_binary h, if_neg notFirst,
    Nat.zero_add, Nat.zero_add]
  exact ⟨rfl, rfl⟩

/-- At its own place a connective neither starts nor ends a span. -/
theorem spansWithin_binary_self (h : arena.node i = .binary op spelling left right)
    (once : (arena.readingOrder i).Nodup) : arena.spansWithin side i i = 0 := by
  obtain ⟨-, -, notLeft, notRight, -⟩ := apart_of_nodup h once
  rw [spansWithin_binary h, spansWithin_eq_zero notLeft, spansWithin_eq_zero notRight]
  cases side with
  | first =>
    rw [place?_first_binary h, if_neg fun atEnd => notLeft (Side.mem_of_place? atEnd)]
  | last =>
    rw [place?_last_binary h, if_neg fun atEnd => notRight (Side.mem_of_place? atEnd)]

end Binary

/-! ## One end at a place -/

/-- Inside a span, none ends where it starts, and none starts where it ends. -/
theorem spansWithin_other_eq_zero (once : (arena.readingOrder i).Nodup)
    (atEnd : side.place? (arena.readingOrder i) = some x) :
    arena.spansWithin side.other i x = 0 := by
  fun_induction arena.readingOrder i with
  | case1 i name h => exact spansWithin_symbol h
  | case2 i value h => exact spansWithin_constant h
  | case3 i spelling operand h ih =>
    obtain ⟨notBehind, onceBelow⟩ := List.nodup_cons.mp once
    rw [spansWithin_not h]
    cases side with
    | first =>
      obtain rfl : i = x := Option.some.inj atEnd
      exact spansWithin_eq_zero notBehind
    | last =>
      rw [← readingOrder_not h, place?_last_not h] at atEnd
      exact ih onceBelow atEnd
  | case4 i op spelling left right h ihLeft ihRight =>
    rw [← readingOrder_binary h] at once atEnd
    obtain ⟨onceLeft, onceRight, -⟩ := apart_of_nodup h once
    cases side with
    | first =>
      rw [place?_first_binary h] at atEnd
      obtain ⟨-, ends⟩ := spansWithin_binary_left h once (Side.mem_of_place? atEnd)
      exact ends.trans (ihLeft onceLeft atEnd)
    | last =>
      rw [place?_last_binary h] at atEnd
      obtain ⟨starts, -⟩ := spansWithin_binary_right h once (Side.mem_of_place? atEnd)
      exact starts.trans (ihRight onceRight atEnd)

/-- No place starts one span and ends another. -/
theorem spansWithin_eq_zero_or (once : (arena.readingOrder i).Nodup)
    (mem : x ∈ arena.readingOrder i) :
    arena.spansWithin .first i x = 0 ∨ arena.spansWithin .last i x = 0 := by
  fun_induction arena.readingOrder i with
  | case1 i name h => exact .inl (spansWithin_symbol h)
  | case2 i value h => exact .inl (spansWithin_constant h)
  | case3 i spelling operand h ih =>
    obtain ⟨notBehind, onceBelow⟩ := List.nodup_cons.mp once
    rw [spansWithin_not h, spansWithin_not h]
    rcases List.mem_cons.mp mem with rfl | mem
    · exact .inl (spansWithin_eq_zero notBehind)
    · exact ih onceBelow mem
  | case4 i op spelling left right h ihLeft ihRight =>
    rw [← readingOrder_binary h] at once
    obtain ⟨onceLeft, onceRight, -⟩ := apart_of_nodup h once
    rcases List.mem_append.mp mem with mem | mem
    · obtain ⟨starts, ends⟩ := spansWithin_binary_left h once mem
      by_cases atEnd : Side.first.place? (arena.readingOrder left.1) = some x
      · exact .inr (ends.trans (spansWithin_other_eq_zero onceLeft atEnd))
      · rw [starts, ends, if_neg atEnd]
        exact ihLeft onceLeft mem
    · rcases List.mem_cons.mp mem with rfl | mem
      · exact .inl (spansWithin_binary_self h once)
      · obtain ⟨starts, ends⟩ := spansWithin_binary_right h once mem
        by_cases atEnd : Side.last.place? (arena.readingOrder right.1) = some x
        · exact .inl (starts.trans (spansWithin_other_eq_zero onceRight atEnd))
        · rw [starts, ends, if_neg atEnd]
          exact ihRight onceRight mem

/-- Fewer spans than the formula is high start or end at a place. -/
theorem spansWithin_lt_height (once : (arena.readingOrder i).Nodup)
    (mem : x ∈ arena.readingOrder i) :
    arena.spansWithin side i x < (arena.formulaAt i).height := by
  fun_induction arena.readingOrder i with
  | case1 i name h => rw [spansWithin_symbol h]; exact (arena.formulaAt i).height_pos
  | case2 i value h => rw [spansWithin_constant h]; exact (arena.formulaAt i).height_pos
  | case3 i spelling operand h ih =>
    obtain ⟨notBehind, onceBelow⟩ := List.nodup_cons.mp once
    rw [spansWithin_not h, formulaAt_not h, Formula.height]
    rcases List.mem_cons.mp mem with rfl | mem
    · rw [spansWithin_eq_zero notBehind]
      exact Nat.succ_pos _
    · exact Nat.lt_succ_of_lt (ih onceBelow mem)
  | case4 i op spelling left right h ihLeft ihRight =>
    rw [← readingOrder_binary h] at once
    obtain ⟨onceLeft, onceRight, -⟩ := apart_of_nodup h once
    rw [formulaAt_binary h, Formula.height]
    rcases List.mem_append.mp mem with mem | mem
    · have below := ihLeft onceLeft mem
      obtain ⟨starts, ends⟩ := spansWithin_binary_left h once mem
      cases side with
      | first => rw [starts]; split <;> omega
      | last => omega
    · rcases List.mem_cons.mp mem with rfl | mem
      · rw [spansWithin_binary_self h once]
        exact Nat.succ_pos _
      · have below := ihRight onceRight mem
        obtain ⟨starts, ends⟩ := spansWithin_binary_right h once mem
        cases side with
        | first => omega
        | last => rw [ends]; split <;> omega

/-! ## The balance of a place -/

/-- The signed count of parentheses of a place inside a span that must carry `demand`: those of the
connectives inside, and the demand where the span ends or starts. -/
def balance (arena : Arena) (i : Fin arena.size) (demand : Int) (x : Fin arena.size) : Int :=
  arena.spansWithin .last i x - arena.spansWithin .first i x +
    (if Side.last.place? (arena.readingOrder i) = some x then max demand 0 else 0) +
    if Side.first.place? (arena.readingOrder i) = some x then min demand 0 else 0

/-- A formula of one node carries all of the demand. -/
theorem balance_of_readingOrder {demand : Int} (only : arena.readingOrder i = [i])
    (noSpan : ∀ side, arena.spansWithin side i i = 0) : arena.balance i demand i = demand := by
  have atEnd (side : Side) : side.place? [i] = some i := by cases side <;> rfl
  rw [balance, noSpan, noSpan, only, if_pos (atEnd _), if_pos (atEnd _)]
  omega

/-- In front of a negation stands what is demanded there, and the rest goes on to its operand. -/
theorem balance_not {spelling : String} {operand : arena.Later i}
    (h : arena.node i = .not spelling operand) (once : (arena.readingOrder i).Nodup)
    (demand : Int) :
    arena.balance i demand i = min demand 0 ∧
      ∀ x ∈ arena.readingOrder operand.1,
        arena.balance i demand x = arena.balance operand.1 (max demand 0) x := by
  rw [readingOrder_not h, List.nodup_cons] at once
  obtain ⟨notBehind, -⟩ := once
  constructor
  · have notLast : Side.last.place? (arena.readingOrder operand.1) ≠ some i :=
      fun atEnd => notBehind (Side.mem_of_place? atEnd)
    rw [balance, spansWithin_not h, spansWithin_not h, spansWithin_eq_zero notBehind,
      spansWithin_eq_zero notBehind, place?_first_not h, place?_last_not h, if_neg notLast,
      if_pos rfl]
    omega
  · intro x mem
    have notFirst : some i ≠ some x := by
      rintro ⟨⟩
      exact notBehind mem
    rw [balance, balance, spansWithin_not h, spansWithin_not h, place?_first_not h,
      place?_last_not h, if_neg notFirst]
    split <;> split <;> omega

/-- Around a connective its operands have one parenthesis more to carry, one on each edge. -/
theorem balance_binary {op : BinaryOp} {spelling : String} {left right : arena.Later i}
    (h : arena.node i = .binary op spelling left right) (once : (arena.readingOrder i).Nodup)
    (demand : Int) :
    (∀ x ∈ arena.readingOrder left.1,
        arena.balance i demand x = arena.balance left.1 (min demand 0 - 1) x) ∧
      arena.balance i demand i = 0 ∧
      ∀ x ∈ arena.readingOrder right.1,
        arena.balance i demand x = arena.balance right.1 (max demand 0 + 1) x := by
  obtain ⟨-, -, notLeft, notRight, apart⟩ := apart_of_nodup h once
  refine ⟨fun x mem => ?_, ?_, fun x mem => ?_⟩
  · obtain ⟨starts, ends⟩ := spansWithin_binary_left h once mem
    have notLast : Side.last.place? (arena.readingOrder right.1) ≠ some x :=
      fun atEnd => apart mem (Side.mem_of_place? atEnd)
    rw [balance, balance, starts, ends, place?_first_binary h, place?_last_binary h,
      if_neg notLast]
    split <;> split <;> omega
  · have notFirst : Side.first.place? (arena.readingOrder left.1) ≠ some i :=
      fun atEnd => notLeft (Side.mem_of_place? atEnd)
    have notLast : Side.last.place? (arena.readingOrder right.1) ≠ some i :=
      fun atEnd => notRight (Side.mem_of_place? atEnd)
    rw [balance, spansWithin_binary_self h once, spansWithin_binary_self h once,
      place?_first_binary h, place?_last_binary h, if_neg notFirst, if_neg notLast]
    omega
  · obtain ⟨starts, ends⟩ := spansWithin_binary_right h once mem
    have notFirst : Side.first.place? (arena.readingOrder left.1) ≠ some x :=
      fun atEnd => apart (Side.mem_of_place? atEnd) mem
    rw [balance, balance, starts, ends, place?_first_binary h, place?_last_binary h,
      if_neg notFirst]
    split <;> split <;> omega

/-- In reading order, the balances are the shares of the formula. -/
theorem map_balance (once : (arena.readingOrder i).Nodup) (demand : Int) :
    (arena.readingOrder i).map (arena.balance i demand) = (arena.formulaAt i).shares demand := by
  fun_induction arena.readingOrder i generalizing demand with
  | case1 i name h =>
    rw [formulaAt_symbol h, Formula.shares, List.map_singleton,
      balance_of_readingOrder (readingOrder_symbol h) fun _ => spansWithin_symbol h]
  | case2 i value h =>
    rw [formulaAt_constant h, Formula.shares, List.map_singleton,
      balance_of_readingOrder (readingOrder_constant h) fun _ => spansWithin_constant h]
  | case3 i spelling operand h ih =>
    obtain ⟨-, onceBelow⟩ := List.nodup_cons.mp once
    rw [← readingOrder_not h] at once
    obtain ⟨atSign, below⟩ := balance_not h once demand
    rw [formulaAt_not h, Formula.shares, List.map_cons, atSign, List.map_congr_left below,
      ih onceBelow]
  | case4 i op spelling left right h ihLeft ihRight =>
    rw [← readingOrder_binary h] at once
    obtain ⟨onceLeft, onceRight, -⟩ := apart_of_nodup h once
    obtain ⟨before, atSign, behind⟩ := balance_binary h once demand
    rw [formulaAt_binary h, Formula.shares, List.map_append, List.map_cons, atSign,
      List.map_congr_left before, List.map_congr_left behind, ihLeft onceLeft, ihRight onceRight]

end Arena

namespace Formula

/-! ## The counts of a formula -/

variable {formula : Formula}

/-- The connectives whose span has a place at one end, wherever they are. -/
theorem length_connectivesAt (formula : Formula) (side : Side) (x : Fin formula.arena.size) :
    (formula.arena.connectivesAt side x).length =
      formula.arena.spansWithin side formula.rootPlace x := by
  rw [Arena.connectivesAt, ← List.countP_eq_length_filter, Arena.spansWithin]
  exact formula.readingOrder_perm.symm.countP_eq _

/-- The count of a place is the number of spans that end there less the number of those that start
there. -/
theorem parenCounts_eq_sub (formula : Formula) (x : Fin formula.arena.size) :
    formula.arena.parenCounts.get x =
      ((formula.arena.connectivesAt .last x).length : Int) -
        (formula.arena.connectivesAt .first x).length := by
  have counts := formula.map_parenCounts
  have balances := Arena.map_balance formula.nodup_readingOrder 0
  rw [formula.formulaAt_arena, ← counts] at balances
  have here : formula.arena.balance formula.rootPlace 0 x = formula.arena.parenCounts.get x :=
    List.map_inj_left.mp balances x (formula.mem_readingOrder_root x)
  rw [length_connectivesAt, length_connectivesAt, ← here, Arena.balance]
  split <;> split <;> omega

/-- No place starts one span and ends another. -/
theorem connectivesAt_eq_nil_or (formula : Formula) (x : Fin formula.arena.size) :
    formula.arena.connectivesAt .first x = [] ∨ formula.arena.connectivesAt .last x = [] := by
  rw [← List.length_eq_zero_iff, ← List.length_eq_zero_iff, length_connectivesAt,
    length_connectivesAt]
  exact Arena.spansWithin_eq_zero_or formula.nodup_readingOrder (formula.mem_readingOrder_root x)

theorem length_connectivesAt_lt_height (formula : Formula) (side : Side)
    (x : Fin formula.arena.size) :
    (formula.arena.connectivesAt side x).length < formula.height := by
  have below : formula.arena.spansWithin side formula.rootPlace x < _ :=
    Arena.spansWithin_lt_height formula.nodup_readingOrder (formula.mem_readingOrder_root x)
  rwa [formula.formulaAt_arena, ← length_connectivesAt] at below

/-- What the counts of a formula say. The count of a place is the number of connectives whose span
ends there less the number of those whose span starts there, and one of the two is zero; either is
below the height of the formula. So the text of a place has an opening parenthesis in front for each
span that starts there and a closing one behind for each span that ends there. In a row, the texts
of all places have exactly one pair for each connective of two operands, around what it spans,
whatever words the nodes are written with. -/
theorem parenCounts_eq_spans (formula : Formula) :
    let arena := formula.arena
    let sheet := Worksheet.ofFormula formula
    (∀ x : Fin arena.size,
      arena.parenCounts.get x =
          ((arena.connectivesAt .last x).length : Int) - (arena.connectivesAt .first x).length ∧
        (arena.connectivesAt .first x = [] ∨ arena.connectivesAt .last x = []) ∧
        (arena.parenCounts.get x).natAbs < formula.height ∧
        ∀ text, parenthesize (arena.parenCounts.get x) text =
          Text.repeated (arena.connectivesAt .first x).length '(' ++ text ++
            Text.repeated (arena.connectivesAt .last x).length ')') ∧
      ∀ word : Formula → String,
        " ".intercalate (sheet.spell fun i => word (sheet.arena.formulaAt i)) =
          formula.spelledOut word := by
  intro arena sheet
  refine ⟨fun x => ?_, fun word => ?_⟩
  · have count : arena.parenCounts.get x =
        ((arena.connectivesAt .last x).length : Int) - (arena.connectivesAt .first x).length :=
      formula.parenCounts_eq_sub x
    have oneEnd : arena.connectivesAt .first x = [] ∨ arena.connectivesAt .last x = [] :=
      formula.connectivesAt_eq_nil_or x
    have starts : (arena.connectivesAt .first x).length < formula.height :=
      formula.length_connectivesAt_lt_height .first x
    have ends : (arena.connectivesAt .last x).length < formula.height :=
      formula.length_connectivesAt_lt_height .last x
    refine ⟨count, oneEnd, by omega, fun text => ?_⟩
    have front : (-arena.parenCounts.get x).toNat = (arena.connectivesAt .first x).length := by
      rcases oneEnd with none | none <;> rw [count, none, List.length_nil] <;> omega
    have behind : (arena.parenCounts.get x).toNat = (arena.connectivesAt .last x).length := by
      rcases oneEnd with none | none <;> rw [count, none, List.length_nil] <;> omega
    rw [parenthesize_eq, front, behind]
  · have pieces : sheet.spell (fun i => word (sheet.arena.formulaAt i)) = formula.pieces word 0 :=
      Worksheet.spell_ofFormula fun _ => rfl
    rw [pieces, intercalate_pieces_zero]

end Formula

end TruthTable
