import Mathlib.Data.BitVec
import TruthTable.Proofs.Valuation.Rows

/-!
# Reversed rows and columns

The flags of a row order do not change which assignments there are, only the numbers of their rows.
To invert all values is to take the row that is as far from the last one as this row is from the
first (`RowOrder.value_turnRows`), since a number and its distance from the last one have opposite
bits. To take the columns from the other side is to take the row whose low bits are this row's in
the opposite order (`RowOrder.value_turnColumns`). The two moves are independent of each other
(`oppositeRow_mirroredRow`).

If the first column takes the highest of the low bits, a greater row number is a later row in the
order of the columns (`bitsDown_lex`).
-/

namespace TruthTable

/-! ## Numbers of rows -/

/-- The row that is as far from the last one as a row is from the first. -/
def oppositeRow (count row : Nat) : Nat :=
  2 ^ count - 1 - row

/-- The row that has the low bits of a row in the opposite order. -/
def mirroredRow (count row : Nat) : Nat :=
  (BitVec.ofNat count row).reverse.toNat

variable {count row row' place column : Nat}

theorem oppositeRow_lt (count row : Nat) : oppositeRow count row < 2 ^ count := by
  have := Nat.two_pow_pos count
  unfold oppositeRow
  omega

theorem mirroredRow_lt (count row : Nat) : mirroredRow count row < 2 ^ count :=
  BitVec.isLt _

theorem testBit_oppositeRow (below : row < 2 ^ count) (inside : place < count) :
    (oppositeRow count row).testBit place = !row.testBit place := by
  rw [oppositeRow, Nat.sub_sub, Nat.add_comm, Nat.testBit_two_pow_sub_succ below,
    decide_eq_true inside, Bool.true_and]

theorem testBit_mirroredRow (inside : place < count) :
    (mirroredRow count row).testBit place = row.testBit (count - 1 - place) := by
  have mirrored : count - 1 - place < count := by omega
  rw [mirroredRow, BitVec.testBit_toNat, BitVec.getLsbD_reverse, BitVec.getMsbD_eq_getLsbD,
    decide_eq_true inside, Bool.true_and, BitVec.getLsbD_ofNat, decide_eq_true mirrored,
    Bool.true_and]

/-- Numbers of rows are equal if they have the same low bits. -/
theorem eq_of_testBit_eq_low (below : row < 2 ^ count) (below' : row' < 2 ^ count)
    (same : ∀ place < count, row.testBit place = row'.testBit place) : row = row' := by
  apply Nat.eq_of_testBit_eq
  intro place
  by_cases low : place < count
  · exact same place low
  · have high : 2 ^ count ≤ 2 ^ place := Nat.pow_le_pow_right (by decide) (Nat.not_lt.mp low)
    rw [Nat.testBit_lt_two_pow (below.trans_le high), Nat.testBit_lt_two_pow (below'.trans_le high)]

theorem mirroredRow_mirroredRow (below : row < 2 ^ count) :
    mirroredRow count (mirroredRow count row) = row := by
  apply eq_of_testBit_eq_low (mirroredRow_lt _ _) below
  intro place inside
  have mirrored : count - 1 - place < count := by omega
  have back : count - 1 - (count - 1 - place) = place := by omega
  rw [testBit_mirroredRow inside, testBit_mirroredRow mirrored, back]

/-- Every row number is the mirror image of one. -/
theorem map_mirroredRow_perm (count : Nat) :
    ((List.range (2 ^ count)).map (mirroredRow count)).Perm (List.range (2 ^ count)) := by
  have apart : ((List.range (2 ^ count)).map (mirroredRow count)).Nodup := by
    refine List.Nodup.map_on (fun r mem r' mem' same => ?_) List.nodup_range
    rw [← mirroredRow_mirroredRow (List.mem_range.mp mem), same,
      mirroredRow_mirroredRow (List.mem_range.mp mem')]
  refine (List.perm_ext_iff_of_nodup apart List.nodup_range).mpr fun r => ?_
  rw [List.mem_map, List.mem_range]
  constructor
  · rintro ⟨r', -, rfl⟩
    exact mirroredRow_lt count r'
  · intro below
    exact ⟨mirroredRow count r, List.mem_range.mpr (mirroredRow_lt count r),
      mirroredRow_mirroredRow below⟩

theorem oppositeRow_mirroredRow (below : row < 2 ^ count) :
    oppositeRow count (mirroredRow count row) = mirroredRow count (oppositeRow count row) := by
  apply eq_of_testBit_eq_low (oppositeRow_lt _ _) (mirroredRow_lt _ _)
  intro place inside
  have mirrored : count - 1 - place < count := by omega
  rw [testBit_oppositeRow (mirroredRow_lt _ _) inside, testBit_mirroredRow inside,
    testBit_mirroredRow inside, testBit_oppositeRow below mirrored]

/-! ## Orders of rows -/

namespace RowOrder

variable {order : RowOrder}

/-- The order with all values inverted. -/
def turnRows (order : RowOrder) : RowOrder :=
  { order with reverseRows := !order.reverseRows }

/-- The order with the columns taken from the other side. -/
def turnColumns (order : RowOrder) : RowOrder :=
  { order with reverseColumns := !order.reverseColumns }

theorem place_turnColumns (inside : column < count) :
    order.turnColumns.place count column = count - 1 - order.place count column := by
  unfold place turnColumns
  cases order.reverseColumns with
  | false => rfl
  | true =>
    show column = count - 1 - (count - 1 - column)
    omega

/-- The value in a column of a row that the row count allows. -/
theorem value_ofNat (few : count ≤ 63) (below : row < 2 ^ count) (inside : column < count) :
    order.value count (UInt64.ofNat row) column =
      (row.testBit (order.place count column) ^^ order.reverseRows) := by
  rw [value_eq _ (few.trans (by decide)) inside, toNat_ofNat_row few below]

theorem value_turnRows (few : count ≤ 63) (below : row < 2 ^ count) (inside : column < count) :
    order.turnRows.value count (UInt64.ofNat row) column =
      order.value count (UInt64.ofNat (oppositeRow count row)) column := by
  have samePlace : order.turnRows.place count column = order.place count column := rfl
  rw [value_ofNat few below inside, value_ofNat few (oppositeRow_lt _ _) inside, samePlace,
    testBit_oppositeRow below (place_lt inside), turnRows, Bool.xor_not, Bool.not_xor]

theorem value_turnColumns (few : count ≤ 63) (below : row < 2 ^ count) (inside : column < count) :
    order.turnColumns.value count (UInt64.ofNat row) column =
      order.value count (UInt64.ofNat (mirroredRow count row)) column := by
  rw [value_ofNat few below inside, value_ofNat few (mirroredRow_lt _ _) inside,
    testBit_mirroredRow (place_lt inside), place_turnColumns inside]
  rfl

end RowOrder

namespace Valuation

variable {order order' : RowOrder} {names : List String}

/-- Rows are the same assignment if they have the same values in all columns. -/
theorem ofRow_congr {row row' : UInt64} (same : ∀ column < names.length,
      order.value names.length row column = order'.value names.length row' column) :
    ofRow order names row = ofRow order' names row' := by
  rw [ofRow, ofRow]
  congr 1
  apply List.ext_getElem
  · rw [List.length_mapIdx, List.length_mapIdx]
  · intro column inside _
    rw [List.length_mapIdx] at inside
    rw [List.getElem_mapIdx, List.getElem_mapIdx, same column inside]

theorem ofRow_turnRows (few : names.length ≤ 63) (below : row < 2 ^ names.length) :
    ofRow order.turnRows names (UInt64.ofNat row) =
      ofRow order names (UInt64.ofNat (oppositeRow names.length row)) :=
  ofRow_congr fun _ inside => RowOrder.value_turnRows few below inside

theorem ofRow_turnColumns (few : names.length ≤ 63) (below : row < 2 ^ names.length) :
    ofRow order.turnColumns names (UInt64.ofNat row) =
      ofRow order names (UInt64.ofNat (mirroredRow names.length row)) :=
  ofRow_congr fun _ inside => RowOrder.value_turnColumns few below inside

end Valuation

/-! ## The order of the columns -/

/-- The low bits of a number, the highest one first. -/
def bitsDown (count row : Nat) : List Bool :=
  (List.range count).map fun column => row.testBit (count - 1 - column)

theorem bitsDown_succ (count row : Nat) :
    bitsDown (count + 1) row = row.testBit count :: bitsDown count row := by
  rw [bitsDown, List.range_succ_eq_map, List.map_cons, List.map_map]
  refine congrArg (_ :: ·) (List.map_congr_left fun column _ => ?_)
  rw [Function.comp_apply]
  congr 1
  omega

/-- The order of numbers is that of their bits from the highest one on, with false before true. -/
theorem bitsDown_lex (less : row % 2 ^ count < row' % 2 ^ count) :
    List.Lex (fun a b => a = false ∧ b = true) (bitsDown count row) (bitsDown count row') := by
  induction count with
  | zero =>
    rw [Nat.pow_zero, Nat.mod_one, Nat.mod_one] at less
    exact absurd less (Nat.lt_irrefl 0)
  | succ count ih =>
    have low := Nat.mod_lt row' (Nat.two_pow_pos count)
    rw [Nat.mod_pow_succ, Nat.mod_pow_succ, ← Nat.toNat_testBit, ← Nat.toNat_testBit] at less
    rw [bitsDown_succ, bitsDown_succ]
    cases high : row.testBit count <;> cases high' : row'.testBit count <;>
      simp only [high, high', Bool.toNat_false, Bool.toNat_true, Nat.mul_zero, Nat.mul_one,
        Nat.add_zero, Nat.add_lt_add_iff_right] at less
    case false.false | true.true => exact .cons (ih less)
    case false.true => exact .rel ⟨rfl, rfl⟩
    case true.false => omega

/-- Where the first column takes the highest bit, and no value is inverted, the rows come in the
order of their columns. -/
theorem Valuation.map_value_lex {order : RowOrder} {names : List String} (distinct : names.Nodup)
    (few : names.length ≤ 63) (highFirst : order.reverseColumns = true)
    (kept : order.reverseRows = false) (less : row < row') (below : row' < 2 ^ names.length) :
    List.Lex (fun a b => a = false ∧ b = true)
      (names.map (ofRow order names (UInt64.ofNat row)).value)
      (names.map (ofRow order names (UInt64.ofNat row')).value) := by
  have columns {row : Nat} (below : row < 2 ^ names.length) :
      names.map (ofRow order names (UInt64.ofNat row)).value = bitsDown names.length row := by
    rw [map_value_ofRow _ _ distinct]
    refine List.map_congr_left fun column mem => ?_
    rw [RowOrder.value_ofNat few below (List.mem_range.mp mem), kept, Bool.xor_false,
      RowOrder.place, if_pos highFirst]
  rw [columns (less.trans below), columns below]
  apply bitsDown_lex
  rwa [Nat.mod_eq_of_lt (less.trans below), Nat.mod_eq_of_lt below]

end TruthTable
