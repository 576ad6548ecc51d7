import Mathlib.Data.List.GetD
import Mathlib.Data.List.Nodup
import Mathlib.Data.Nat.Bitwise
import Mathlib.Data.String.Basic
import TruthTable.Formula

/-!
# The valuations of the rows

A row number is read bit by bit, one bit for each symbol. Two facts make the rows of a table all
that there is to know of a formula:

- each column of a row takes its own bit (`RowOrder.value_eq`), so for any choice of values some
  row has exactly these values in its columns (`RowOrder.exists_row`), whatever the order of the
  rows is;
- the symbols at the head of a table are the names that occur in the formula, each of them once
  (`Formula.mem_symbols`, `Formula.pairwise_symbols`), so the valuation of a row has a value for
  each of them (`Valuation.getElem?_ofRow`) and for no other name (`Valuation.mem_ofRow`).

Hence every valuation agrees with that of some row on the symbols (`Valuation.exists_ofRow`).
-/

namespace TruthTable

/-! ## The bits of a row -/

/-- A bit whose place has 32 bits is the bit of the number. -/
theorem rowBit_eq_testBit (row : UInt64) {place : Nat} (small : place < 2 ^ 32) :
    rowBit row place = row.toNat.testBit place := by
  have kept : place.toUInt32.toNat = place := UInt32.toNat_ofNat_of_lt' small
  rw [rowBit, kept, ← UInt64.toNat_toBitVec, BitVec.testBit_toNat]

/-- The number of a row that the row count allows fits 64 bits. -/
theorem toNat_ofNat_row {count row : Nat} (few : count ≤ 63) (below : row < 2 ^ count) :
    (UInt64.ofNat row).toNat = row := by
  have fits : 2 ^ count ≤ 2 ^ 64 := Nat.pow_le_pow_right (by decide) (few.trans (by decide))
  exact UInt64.toNat_ofNat_of_lt' (below.trans_le fits)

namespace RowOrder

/-- The place of the bit that a column takes. -/
def place (order : RowOrder) (count column : Nat) : Nat :=
  if order.reverseColumns then count - 1 - column else column

variable {order : RowOrder} {count column : Nat}

theorem place_lt (inside : column < count) : order.place count column < count := by
  unfold place
  split <;> omega

/-- The place of a place is the column. -/
theorem place_place (inside : column < count) :
    order.place count (order.place count column) = column := by
  unfold place
  split <;> omega

theorem value_eq (row : UInt64) (few : count ≤ 2 ^ 32) (inside : column < count) :
    order.value count row column =
      (row.toNat.testBit (order.place count column) ^^ order.reverseRows) := by
  have small : order.place count column < 2 ^ 32 := (place_lt inside).trans_le few
  rw [← rowBit_eq_testBit row small]
  rfl

/-- Some row has the given values in its columns. -/
theorem exists_row (order : RowOrder) (few : count ≤ 64) (values : Nat → Bool) :
    ∃ row : UInt64, row.toNat < 2 ^ count ∧
      ∀ column < count, order.value count row column = values column := by
  -- The column that takes the bit at a place is the place of the place.
  let bits (place : Fin count) : Bool := values (order.place count place) ^^ order.reverseRows
  have below : Nat.ofBits bits < 2 ^ count := Nat.ofBits_lt_two_pow bits
  have fits : Nat.ofBits bits < 2 ^ 64 :=
    below.trans_le (Nat.pow_le_pow_right (by decide) few)
  have number : (UInt64.ofNat (Nat.ofBits bits)).toNat = Nat.ofBits bits :=
    UInt64.toNat_ofNat_of_lt' fits
  refine ⟨UInt64.ofNat (Nat.ofBits bits), number.trans_lt below, fun column inside => ?_⟩
  have few32 : count ≤ 2 ^ 32 := few.trans (by decide)
  rw [value_eq _ few32 inside, number, Nat.testBit_ofBits_lt bits _ (place_lt inside)]
  simp only [bits, place_place inside, Bool.xor_assoc, Bool.xor_self, Bool.xor_false]

end RowOrder

/-! ## The valuation of a row -/

namespace Valuation

variable {order : RowOrder} {names : List String} {row : UInt64}

/-- The valuation of a row has values for the symbols of the table only. -/
theorem mem_ofRow {name : String} : name ∈ ofRow order names row ↔ name ∈ names := by
  have heads : (names.mapIdx fun column name =>
      (name, order.value names.length row column)).map Prod.fst = names := by
    apply List.ext_getElem?
    intro column
    rw [List.getElem?_map, List.getElem?_mapIdx, Option.map_map]
    exact Option.map_id_apply
  rw [ofRow, Std.ExtTreeMap.mem_ofList, heads, List.contains_iff_mem]

/-- The symbol at the head of a column has the value of the column. -/
theorem getElem?_ofRow (distinct : names.Nodup) {column : Nat} {name : String}
    (head : names[column]? = some name) :
    (ofRow order names row)[name]? = some (order.value names.length row column) := by
  apply Std.ExtTreeMap.getElem?_ofList_of_mem Std.ReflCmp.compare_self
  · rw [List.pairwise_iff_getElem]
    intro i j hi hj before same
    rw [List.length_mapIdx] at hi hj
    simp only [List.getElem_mapIdx, Std.compare_eq_iff_eq] at same
    exact Nat.ne_of_lt before (distinct.getElem_inj_iff.mp same)
  · obtain ⟨inside, rfl⟩ := List.getElem?_eq_some_iff.mp head
    exact List.mem_mapIdx.mpr ⟨column, inside, rfl⟩

theorem value_ofRow (distinct : names.Nodup) {column : Nat} {name : String}
    (head : names[column]? = some name) :
    (ofRow order names row).value name = order.value names.length row column := by
  rw [value, Std.ExtTreeMap.getD_eq_getD_getElem?, getElem?_ofRow distinct head, Option.getD_some]

/-- The values of the symbols are those of the columns. -/
theorem map_value_ofRow (order : RowOrder) (row : UInt64) (distinct : names.Nodup) :
    names.map (ofRow order names row).value =
      (List.range names.length).map (order.value names.length row) := by
  apply List.ext_getElem?
  intro column
  rw [List.getElem?_map, List.getElem?_map]
  by_cases inside : column < names.length
  · have head := List.getElem?_eq_getElem inside
    rw [head, List.getElem?_range inside, Option.map_some, Option.map_some,
      value_ofRow distinct head]
  · rw [List.getElem?_eq_none (by omega), List.getElem?_eq_none (by simp; omega)]
    rfl

/-- Every valuation agrees with that of some row on the symbols of the table. -/
theorem exists_ofRow (order : RowOrder) (distinct : names.Nodup) (few : names.length ≤ 64)
    (valuation : Valuation) :
    ∃ row : UInt64, row.toNat < 2 ^ names.length ∧
      ∀ name ∈ names, (ofRow order names row).value name = valuation.value name := by
  obtain ⟨row, below, same⟩ :=
    order.exists_row few fun column => valuation.value (names.getD column "")
  refine ⟨row, below, fun name mem => ?_⟩
  obtain ⟨column, inside, rfl⟩ := List.mem_iff_getElem.mp mem
  rw [value_ofRow distinct (List.getElem?_eq_getElem inside), same column inside,
    List.getD_eq_getElem _ _ inside]

end Valuation

/-! ## The symbols of a formula -/

namespace Formula

/-- The symbols are the names that occur. -/
theorem mem_symbols {formula : Formula} {name : String} :
    name ∈ formula.symbols ↔ name ∈ formula.names := by
  rw [symbols, Std.TreeSet.mem_toList, Std.TreeSet.mem_ofList, List.contains_iff_mem]

/-- The symbols come in increasing order. -/
theorem pairwise_symbols (formula : Formula) : formula.symbols.Pairwise (· < ·) := by
  have ordered : formula.symbols.Pairwise fun a b => compare a b = .lt :=
    Std.TreeSet.ordered_toList
  exact ordered.imp compareOfLessAndEq_eq_lt.mp

theorem nodup_symbols (formula : Formula) : formula.symbols.Nodup :=
  formula.pairwise_symbols.imp ne_of_lt

end Formula

end TruthTable
