import Mathlib.Algebra.GroupWithZero.Nat
import Mathlib.Data.List.Basic
import TruthTable.Grid

/-!
# Columns side by side

A line in plain text is joined in one way if there are columns for symbols, and in another way if
there are none. In both ways each column stands behind what joins it to the one before: nothing in
front of the first column, the bar in front of the first column behind the symbols, and a gap
elsewhere (`Grid.toList_plainJoin`). The place of a column depends only on the widths of the columns
before it (`Grid.length_layOut_take`), so columns of the same widths have the same places in all
lines.

A line laid out so shows a column from its start on (`Grid.take_drop_layOut`), the bar in the middle
of its joint (`Grid.getElem?_layOut_bar`), and a gap everywhere else (`Grid.getElem?_layOut_gap`).
-/

namespace TruthTable.Grid

/-! ## Places -/

/-- Where a column starts: behind the columns before it, each with a gap behind it. The bar takes
two characters more than a gap. -/
def columnStart (symbolCount : Nat) (widths : List Nat) (k : Nat) : Nat :=
  (widths.take k).sum + k + if 0 < symbolCount ∧ symbolCount ≤ k then 2 else 0

/-- The number of characters of a line: its columns, a gap between two of them, and the bar. -/
def lineWidth (symbolCount : Nat) (widths : List Nat) : Nat :=
  widths.sum + (widths.length - 1) + if 0 < symbolCount then 2 else 0

/-- Where the bar stands: one character before the first column behind the symbols. -/
def barPlace (symbolCount : Nat) (widths : List Nat) : Nat :=
  columnStart symbolCount widths symbolCount - 2

/-- Whether a place lies in a column. -/
def InColumn (symbolCount : Nat) (widths : List Nat) (k p : Nat) : Prop :=
  ∃ width, widths[k]? = some width ∧ columnStart symbolCount widths k ≤ p ∧
    p < columnStart symbolCount widths k + width

/-! ## Columns behind their joints -/

section

variable {symbolCount : Nat} {gap bar : Char}

/-- What stands in front of a column. -/
def joint (symbolCount : Nat) (gap bar : Char) (k : Nat) : List Char :=
  if k = 0 then [] else if k = symbolCount then [gap, bar, gap] else [gap]

/-- Columns from the `k`-th on, each behind its joint. -/
def layOut (symbolCount : Nat) (gap bar : Char) : Nat → List String → List Char
  | _, [] => []
  | k, column :: rest =>
    joint symbolCount gap bar k ++ (column.toList ++ layOut symbolCount gap bar (k + 1) rest)

theorem layOut_append (k : Nat) (before after : List String) :
    layOut symbolCount gap bar k (before ++ after) =
      layOut symbolCount gap bar k before ++
        layOut symbolCount gap bar (k + before.length) after := by
  induction before generalizing k with
  | nil => rfl
  | cons column before ih =>
    rw [List.cons_append, layOut, ih, layOut, List.length_cons, List.append_assoc,
      List.append_assoc, Nat.add_assoc, Nat.add_comm 1]

theorem length_joint_succ (k : Nat) :
    (joint symbolCount gap bar (k + 1)).length = if k + 1 = symbolCount then 3 else 1 := by
  rw [joint, if_neg (Nat.succ_ne_zero k)]
  split <;> rfl

theorem joint_of_pos (withSymbols : 0 < symbolCount) :
    joint symbolCount gap bar symbolCount = [gap, bar, gap] := by
  rw [joint, if_neg (Nat.ne_of_gt withSymbols), if_pos rfl]

/-- All characters of a joint are gaps, but the middle one in front of the first column behind the
symbols. -/
theorem getElem?_joint {k q : Nat} (inside : q < (joint symbolCount gap bar k).length)
    (apart : k = symbolCount → q ≠ 1) : (joint symbolCount gap bar k)[q]? = gap := by
  unfold joint at inside ⊢
  by_cases first : k = 0
  · rw [if_pos first] at inside
    exact absurd inside (Nat.not_lt_zero q)
  · rw [if_neg first] at inside ⊢
    by_cases withBar : k = symbolCount
    · rw [if_pos withBar] at inside ⊢
      match q, inside, apart withBar with
      | 0, _, _ | 2, _, _ => rfl
    · rw [if_neg withBar] at inside ⊢
      rw [Nat.lt_one_iff.mp inside]
      rfl

theorem columnStart_zero (widths : List Nat) : columnStart symbolCount widths 0 = 0 := by
  rw [columnStart, if_neg fun ⟨before, behind⟩ => absurd before (Nat.not_lt.mpr behind)]
  rfl

/-- A column starts behind the one before it and its own joint. -/
theorem columnStart_succ {widths : List Nat} {k width : Nat} (column : widths[k]? = some width) :
    columnStart symbolCount widths (k + 1) =
      columnStart symbolCount widths k + width + if k + 1 = symbolCount then 3 else 1 := by
  have sum : (widths.take (k + 1)).sum = (widths.take k).sum + width := by
    rw [List.take_add_one, column, List.sum_append]
    rfl
  rw [columnStart, columnStart, sum]
  by_cases here : k + 1 = symbolCount
  · rw [if_pos here, if_pos (by omega), if_neg (by omega)]
    omega
  · have same : (0 < symbolCount ∧ symbolCount ≤ k + 1) ↔ 0 < symbolCount ∧ symbolCount ≤ k := by
      omega
    rw [if_neg here, if_congr same rfl rfl]
    omega

/-- The columns before a column, and its joint, take the place up to its start. -/
theorem length_layOut_take (symbolCount : Nat) (gap bar : Char) {columns : List String} {k : Nat}
    (inside : k ≤ columns.length) :
    (layOut symbolCount gap bar 0 (columns.take k)).length +
        (joint symbolCount gap bar k).length =
      columnStart symbolCount (columns.map String.length) k := by
  induction k with
  | zero => exact (columnStart_zero _).symm
  | succ k ih =>
    have column : columns[k]? = some columns[k] := List.getElem?_eq_getElem inside
    have width : (columns.map String.length)[k]? = some columns[k].length := by
      rw [List.getElem?_map, column]
      rfl
    rw [columnStart_succ width, ← ih (Nat.le_of_succ_le inside), length_joint_succ,
      List.take_add_one, column, layOut_append, List.length_take_of_le (Nat.le_of_succ_le inside)]
    simp only [Option.toList_some, layOut, List.length_append, List.length_nil, Nat.zero_add,
      String.length_toList]
    omega

/-- From a joint on, a line goes on with it and its column. -/
theorem drop_layOut {columns : List String} {k : Nat} {column : String}
    (here : columns[k]? = some column) :
    (layOut symbolCount gap bar 0 columns).drop
        (layOut symbolCount gap bar 0 (columns.take k)).length =
      joint symbolCount gap bar k ++
        (column.toList ++ layOut symbolCount gap bar (k + 1) (columns.drop (k + 1))) := by
  obtain ⟨inside, rfl⟩ := List.getElem?_eq_some_iff.mp here
  have parts : columns = columns.take k ++ columns[k] :: columns.drop (k + 1) := by
    rw [← List.drop_eq_getElem_cons inside, List.take_append_drop]
  conv_lhs =>
    rw [parts, layOut_append, List.length_take_of_le (Nat.le_of_lt inside), Nat.zero_add, layOut]
  rw [← parts, List.drop_left]

/-- A line shows a column from its start on. -/
theorem take_drop_layOut (symbolCount : Nat) (gap bar : Char) {columns : List String} {k : Nat}
    {column : String} (here : columns[k]? = some column) :
    ((layOut symbolCount gap bar 0 columns).drop
        (columnStart symbolCount (columns.map String.length) k)).take column.length =
      column.toList := by
  have inside := (List.getElem?_eq_some_iff.mp here).1
  rw [← length_layOut_take symbolCount gap bar (Nat.le_of_lt inside), ← List.drop_drop,
    drop_layOut here, List.drop_left, ← String.length_toList, List.take_left]

/-- In a column stands a character of the column. -/
theorem exists_of_inColumn (gap bar : Char) {columns : List String} {k p : Nat}
    (within : InColumn symbolCount (columns.map String.length) k p) :
    ∃ column ∈ columns, ∃ c ∈ column.toList,
      (layOut symbolCount gap bar 0 columns)[p]? = some c := by
  obtain ⟨width, inWidths, start, bound⟩ := within
  rw [List.getElem?_map] at inWidths
  obtain ⟨column, here, rfl⟩ := Option.map_eq_some_iff.mp inWidths
  obtain ⟨q, rfl⟩ := Nat.exists_eq_add_of_le start
  have inside : q < column.toList.length := by
    rw [String.length_toList]
    omega
  refine ⟨column, List.mem_of_getElem? here, column.toList[q], List.getElem_mem inside, ?_⟩
  rw [← List.getElem?_eq_getElem inside, ← take_drop_layOut symbolCount gap bar here,
    List.getElem?_take_of_lt (by omega), List.getElem?_drop]

/-- A line is as wide as its columns with all that joins them. -/
theorem length_layOut {columns : List String} (more : symbolCount < columns.length) :
    (layOut symbolCount gap bar 0 columns).length =
      lineWidth symbolCount (columns.map String.length) := by
  have joined : (joint symbolCount gap bar columns.length).length = 1 := by
    obtain ⟨k, count⟩ := Nat.exists_eq_add_one_of_ne_zero (Nat.ne_zero_of_lt more)
    rw [count, length_joint_succ, if_neg (by omega)]
  have start : columnStart symbolCount (columns.map String.length) columns.length =
      (columns.map String.length).sum + columns.length + if 0 < symbolCount then 2 else 0 := by
    have all : (columns.map String.length).take columns.length = columns.map String.length :=
      List.take_of_length_le (Nat.le_of_eq (List.length_map _))
    rw [columnStart, all, if_congr (and_iff_left (Nat.le_of_lt more)) rfl rfl]
  have whole := length_layOut_take symbolCount gap bar (Nat.le_refl columns.length)
  rw [List.take_length, joined, start] at whole
  rw [lineWidth, List.length_map]
  omega

/-- A place in a line is in a column or in its joint. -/
theorem exists_of_lt_length_layOut {k p : Nat} {columns : List String}
    (inside : p < (layOut symbolCount gap bar k columns).length) :
    ∃ i column q, columns[i]? = some column ∧
      p = (layOut symbolCount gap bar k (columns.take i)).length + q ∧
      q < (joint symbolCount gap bar (k + i)).length + column.length := by
  induction columns generalizing k p with
  | nil => exact absurd inside (Nat.not_lt_zero p)
  | cons column rest ih =>
    rw [layOut, List.length_append, List.length_append, String.length_toList] at inside
    by_cases here : p < (joint symbolCount gap bar k).length + column.length
    · exact ⟨0, column, p, rfl, (Nat.zero_add p).symm, here⟩
    · obtain ⟨i, other, q, found, place, bound⟩ :=
        ih (k := k + 1) (p := p - ((joint symbolCount gap bar k).length + column.length)) (by omega)
      refine ⟨i + 1, other, q, found, ?_, ?_⟩
      · rw [List.take_succ_cons, layOut, List.length_append, List.length_append,
          String.length_toList]
        omega
      · rwa [← Nat.add_assoc, Nat.add_right_comm]

/-- The bar stands in the middle of its joint. -/
theorem barPlace_eq (gap bar : Char) {columns : List String} (withSymbols : 0 < symbolCount)
    (inside : symbolCount ≤ columns.length) :
    barPlace symbolCount (columns.map String.length) =
      (layOut symbolCount gap bar 0 (columns.take symbolCount)).length + 1 := by
  rw [barPlace, ← length_layOut_take symbolCount gap bar inside, joint_of_pos withSymbols]
  rfl

theorem getElem?_layOut_bar {columns : List String} (withSymbols : 0 < symbolCount)
    (more : symbolCount < columns.length) :
    (layOut symbolCount gap bar 0 columns)[barPlace symbolCount (columns.map String.length)]? =
      bar := by
  rw [barPlace_eq gap bar withSymbols (Nat.le_of_lt more), ← List.getElem?_drop,
    drop_layOut (List.getElem?_eq_getElem more), joint_of_pos withSymbols]
  rfl

/-- Outside the columns, and away from the bar, stands a gap. -/
theorem getElem?_layOut_gap {columns : List String} {p : Nat}
    (inside : p < (layOut symbolCount gap bar 0 columns).length)
    (outside : ∀ k, ¬ InColumn symbolCount (columns.map String.length) k p)
    (apart : 0 < symbolCount → p ≠ barPlace symbolCount (columns.map String.length)) :
    (layOut symbolCount gap bar 0 columns)[p]? = gap := by
  -- The place belongs to a column or to its joint, and is outside the column.
  obtain ⟨k, column, q, here, place, bound⟩ := exists_of_lt_length_layOut inside
  rw [Nat.zero_add] at bound
  have among : k ≤ columns.length := Nat.le_of_lt (List.getElem?_eq_some_iff.mp here).1
  have start := length_layOut_take symbolCount gap bar among
  have width : (columns.map String.length)[k]? = some column.length := by
    rw [List.getElem?_map, here]
    rfl
  have inJoint : q < (joint symbolCount gap bar k).length := by
    by_contra behind
    exact outside k ⟨_, width, by omega, by omega⟩
  rw [place, ← List.getElem?_drop, drop_layOut here, List.getElem?_append_left inJoint]
  refine getElem?_joint inJoint ?_
  rintro rfl rfl
  have withSymbols : 0 < k := Nat.pos_of_ne_zero fun none => by
    rw [joint, if_pos none] at inJoint
    exact absurd inJoint (Nat.not_lt_zero 1)
  exact apart withSymbols (place.trans (barPlace_eq gap bar withSymbols among).symm)

end

/-! ## Lines of a grid -/

section

variable {grid : Grid} {between beforeNodes : String} {gap bar : Char}

/-- Columns that are joined by gaps alone stand behind their joints, but for the first. -/
theorem toList_intercalate_cons (gapText : between.toList = [gap]) (column : String)
    {rest : List String} {symbolCount k : Nat}
    (noBar : ∀ i < rest.length, k + 1 + i ≠ symbolCount) :
    (between.intercalate (column :: rest)).toList =
      column.toList ++ layOut symbolCount gap bar (k + 1) rest := by
  induction rest generalizing column k with
  | nil => rw [String.intercalate_singleton, layOut, List.append_nil]
  | cons next rest ih =>
    have here : k + 1 ≠ symbolCount := noBar 0 (Nat.zero_lt_succ _)
    have later : ∀ i < rest.length, k + 1 + 1 + i ≠ symbolCount := fun i inside => by
      have := noBar (i + 1) (Nat.succ_lt_succ inside)
      omega
    rw [String.intercalate_cons_of_ne_nil (List.cons_ne_nil _ _), String.toList_append,
      String.toList_append, gapText, ih next later, layOut, joint, if_neg (Nat.succ_ne_zero k),
      if_neg here, List.append_assoc]

theorem toList_intercalate (gapText : between.toList = [gap]) {columns : List String}
    {symbolCount : Nat} (nonempty : columns ≠ [])
    (noBar : ∀ i < columns.length, i ≠ 0 → i ≠ symbolCount) :
    (between.intercalate columns).toList = layOut symbolCount gap bar 0 columns := by
  cases columns with
  | nil => exact absurd rfl nonempty
  | cons column rest =>
    refine toList_intercalate_cons gapText column fun i inside => noBar _ ?_ ?_
    · rw [List.length_cons]
      omega
    · omega

/-- With and without symbols, a line has each column behind its joint. -/
theorem toList_plainJoin (gapText : between.toList = [gap])
    (barText : beforeNodes.toList = [gap, bar, gap]) {columns : List String}
    (more : grid.symbolCount < columns.length) :
    (grid.plainJoin between beforeNodes columns).toList =
      layOut grid.symbolCount gap bar 0 columns := by
  have count : (columns.take grid.symbolCount).length = grid.symbolCount :=
    List.length_take_of_le (Nat.le_of_lt more)
  rw [plainJoin]
  split
  case isTrue none =>
    refine toList_intercalate gapText (List.ne_nil_of_length_pos (Nat.zero_lt_of_lt more)) ?_
    exact fun i _ later => none ▸ later
  case isFalse withSymbols =>
    -- Only the first column behind the symbols has the bar in front of it.
    have front : (between.intercalate (columns.take grid.symbolCount)).toList =
        layOut grid.symbolCount gap bar 0 (columns.take grid.symbolCount) := by
      refine toList_intercalate gapText (List.ne_nil_of_length_pos ?_) ?_
      · rw [count]
        exact Nat.pos_of_ne_zero withSymbols
      · rw [count]
        exact fun i inside _ => Nat.ne_of_lt inside
    have behind : (between.intercalate (columns.drop grid.symbolCount)).toList =
        columns[grid.symbolCount].toList ++
          layOut grid.symbolCount gap bar (grid.symbolCount + 1)
            (columns.drop (grid.symbolCount + 1)) := by
      rw [List.drop_eq_getElem_cons more]
      exact toList_intercalate_cons gapText _ fun i _ => by omega
    conv_rhs =>
      rw [← List.take_append_drop grid.symbolCount columns, layOut_append, count,
        Nat.zero_add, List.drop_eq_getElem_cons more, layOut,
        joint_of_pos (Nat.pos_of_ne_zero withSymbols)]
    rw [String.toList_append, String.toList_append, front, barText, behind, List.append_assoc]

end

end TruthTable.Grid
