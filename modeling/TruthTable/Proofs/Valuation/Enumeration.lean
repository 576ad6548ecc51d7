import Mathlib.Data.Int.ModEq
import TruthTable.Proofs.Valuation.Rows

/-!
# Rows and assignments

An assignment to some names gives a value to each of them and to no other name
(`Valuation.Assigns`). The rows of a table go through the assignments to its symbols, in an order
that the flags choose, and meet each of them once.

Whether two rows are the same assignment is a question of their low bits. Each column takes a bit
of its own among as many low bits as there are columns, and each of these bits is taken by some
column, so equal columns and equal low bits are the same thing
(`RowOrder.forall_value_eq_iff`). Row numbers of 64 bits therefore repeat after `2 ^ n` rows
(`Valuation.ofRow_eq_iff`), and before that they do not. That no assignment is left out is
`Valuation.exists_ofRow`.
-/

namespace TruthTable

/-! ## Columns and low bits -/

namespace RowOrder

variable {order : RowOrder} {count column : Nat} {row row' : UInt64}

/-- Two rows have the same value in a column exactly if they have the same bit at its place. -/
theorem value_eq_iff (few : count ≤ 64) (inside : column < count) :
    order.value count row column = order.value count row' column ↔
      row.toNat.testBit (order.place count column) =
        row'.toNat.testBit (order.place count column) := by
  have few32 : count ≤ 2 ^ 32 := few.trans (by decide)
  rw [value_eq row few32 inside, value_eq row' few32 inside, Bool.xor_left_inj]

/-- Two rows have the same values in all columns exactly if their numbers agree in as many low
bits. -/
theorem forall_value_eq_iff (order : RowOrder) (few : count ≤ 64) :
    (∀ column < count, order.value count row column = order.value count row' column) ↔
      row.toNat ≡ row'.toNat [MOD 2 ^ count] := by
  constructor
  · intro same
    apply Nat.eq_of_testBit_eq
    intro place
    rw [Nat.testBit_mod_two_pow, Nat.testBit_mod_two_pow]
    by_cases low : place < count
    · -- The column that takes the bit at a place is the place of the place.
      have inside : order.place count place < count := place_lt low
      have bits := (value_eq_iff few inside).mp (same _ inside)
      rw [place_place low] at bits
      rw [bits]
    · rw [decide_eq_false low, Bool.false_and, Bool.false_and]
  · intro congruent column inside
    have bits := congrArg (·.testBit (order.place count column)) congruent
    simp only [Nat.testBit_mod_two_pow, place_lt inside, decide_true, Bool.true_and] at bits
    exact (value_eq_iff few inside).mpr bits

end RowOrder

/-! ## Assignments -/

namespace Valuation

variable {order : RowOrder} {names : List String} {row row' : UInt64}

/-- Whether a valuation gives values to exactly the given names. -/
def Assigns (valuation : Valuation) (names : List String) : Prop :=
  ∀ name, name ∈ valuation ↔ name ∈ names

theorem assigns_ofRow (order : RowOrder) (names : List String) (row : UInt64) :
    (ofRow order names row).Assigns names :=
  fun _ => mem_ofRow

/-- Assignments to the same names are equal if they give each name the same value. -/
theorem Assigns.ext {one other : Valuation} (assigns : one.Assigns names)
    (assigns' : other.Assigns names) (same : ∀ name ∈ names, one.value name = other.value name) :
    one = other := by
  apply Std.ExtTreeMap.ext_getElem?
  intro name
  by_cases mem : name ∈ names
  · have values := same name mem
    have inOne : name ∈ one := (assigns name).mpr mem
    have inOther : name ∈ other := (assigns' name).mpr mem
    rw [value, value, Std.ExtTreeMap.getD_eq_getD_getElem?, Std.ExtTreeMap.getD_eq_getD_getElem?,
      Std.ExtTreeMap.getElem?_eq_some_getElem inOne,
      Std.ExtTreeMap.getElem?_eq_some_getElem inOther, Option.getD_some, Option.getD_some] at values
    rw [Std.ExtTreeMap.getElem?_eq_some_getElem inOne,
      Std.ExtTreeMap.getElem?_eq_some_getElem inOther, values]
  · rw [Std.ExtTreeMap.getElem?_eq_none (mt (assigns name).mp mem),
      Std.ExtTreeMap.getElem?_eq_none (mt (assigns' name).mp mem)]

/-- Two rows are the same assignment exactly if they have the same values in all columns. -/
theorem ofRow_eq_iff_value (distinct : names.Nodup) :
    ofRow order names row = ofRow order names row' ↔
      ∀ column < names.length,
        order.value names.length row column = order.value names.length row' column := by
  constructor
  · intro same column inside
    have head := List.getElem?_eq_getElem inside
    rw [← value_ofRow distinct head, same, value_ofRow distinct head]
  · intro same
    refine (assigns_ofRow order names row).ext (assigns_ofRow order names row') fun name mem => ?_
    obtain ⟨column, inside, rfl⟩ := List.mem_iff_getElem.mp mem
    have head := List.getElem?_eq_getElem inside
    rw [value_ofRow distinct head, value_ofRow distinct head, same column inside]

/-- Two rows are the same assignment exactly if their numbers are congruent. -/
theorem ofRow_eq_iff (distinct : names.Nodup) (few : names.length ≤ 64) :
    ofRow order names row = ofRow order names row' ↔
      row.toNat ≡ row'.toNat [MOD 2 ^ names.length] :=
  (ofRow_eq_iff_value distinct).trans (order.forall_value_eq_iff few)

/-- Every assignment is that of a row. -/
theorem exists_ofRow_eq (order : RowOrder) (distinct : names.Nodup) (few : names.length ≤ 64)
    {valuation : Valuation} (assigns : valuation.Assigns names) :
    ∃ row : UInt64, row.toNat < 2 ^ names.length ∧ ofRow order names row = valuation := by
  obtain ⟨row, below, same⟩ := exists_ofRow order distinct few valuation
  exact ⟨row, below, (assigns_ofRow order names row).ext assigns same⟩

/-! ## All rows -/

/-- The assignments of the first `count` rows. -/
def ofRows (order : RowOrder) (names : List String) (count : Nat) : List Valuation :=
  (List.range count).map fun row => ofRow order names (UInt64.ofNat row)

theorem nodup_ofRows (order : RowOrder) (distinct : names.Nodup) (few : names.length ≤ 63) :
    (ofRows order names (2 ^ names.length)).Nodup := by
  refine List.Nodup.map_on ?_ List.nodup_range
  intro row mem row' mem' same
  rw [List.mem_range] at mem mem'
  have congruent := (ofRow_eq_iff distinct (few.trans (by decide))).mp same
  rw [toNat_ofNat_row few mem, toNat_ofNat_row few mem'] at congruent
  exact congruent.eq_of_lt_of_lt mem mem'

theorem mem_ofRows (distinct : names.Nodup) (few : names.length ≤ 63) {valuation : Valuation} :
    valuation ∈ ofRows order names (2 ^ names.length) ↔ valuation.Assigns names := by
  rw [ofRows, List.mem_map]
  constructor
  · rintro ⟨row, -, rfl⟩
    exact assigns_ofRow order names _
  · intro assigns
    obtain ⟨row, below, same⟩ :=
      exists_ofRow_eq order distinct (few.trans (by decide)) assigns
    refine ⟨row.toNat, List.mem_range.mpr below, ?_⟩
    rw [UInt64.ofNat_toNat, same]

/-- The rows go through the assignments. Two rows of 64 bits are the same assignment exactly if
they are congruent modulo the number of rows, and every assignment is that of a row below this
number. So where the number itself fits 64 bits, the rows below it list all assignments, and each
of them once. -/
theorem rows_enumerate (order : RowOrder) (names : List String) (distinct : names.Nodup)
    (few : names.length ≤ 64) :
    (∀ row row' : UInt64, ofRow order names row = ofRow order names row' ↔
        row.toNat ≡ row'.toNat [MOD 2 ^ names.length]) ∧
      (∀ valuation : Valuation, valuation.Assigns names →
        ∃ row : UInt64, row.toNat < 2 ^ names.length ∧ ofRow order names row = valuation) ∧
      (names.length ≤ 63 → ∃ count, rowCount? names.length = some count ∧
        (ofRows order names count).length = 2 ^ names.length ∧
        (ofRows order names count).Nodup ∧
        ∀ valuation, valuation ∈ ofRows order names count ↔ valuation.Assigns names) := by
  refine ⟨fun _ _ => ofRow_eq_iff distinct few,
    fun _ => exists_ofRow_eq order distinct few, fun fewer => ?_⟩
  have counted : rowCount? names.length = some (2 ^ names.length) :=
    if_pos (Nat.lt_succ_of_le fewer)
  have length : (ofRows order names (2 ^ names.length)).length = 2 ^ names.length := by
    rw [ofRows, List.length_map, List.length_range]
  exact ⟨_, counted, length, nodup_ofRows order distinct fewer,
    fun _ => mem_ofRows distinct fewer⟩

/-- With 63 names the highest bit of a row number is the only one that no column takes. -/
theorem rows_enumerate_of_highest_bit :
    let order : RowOrder := ⟨true, true⟩
    let names := (List.range 63).map toString
    names.Nodup ∧ names.length = 63 ∧
      ofRow order names (UInt64.ofNat (2 ^ 63 + 5)) = ofRow order names 5 ∧
      ofRow order names (UInt64.ofNat (2 ^ 62 + 5)) ≠ ofRow order names 5 ∧
      ∃ count, rowCount? names.length = some count ∧ (ofRows order names count).Nodup := by
  intro order names
  have distinct : names.Nodup := by decide +kernel
  have length : names.length = 63 := by decide +kernel
  have few : names.length ≤ 63 := Nat.le_of_eq length
  obtain ⟨same, -, rows⟩ := rows_enumerate order names distinct (few.trans (by decide))
  obtain ⟨count, counted, -, once, -⟩ := rows few
  refine ⟨distinct, length, (same _ _).mpr ?_, fun equal => ?_, count, counted, once⟩
  · rw [length]
    decide +kernel
  · have congruent := (same _ _).mp equal
    rw [length] at congruent
    exact absurd congruent (by decide +kernel)

end Valuation

end TruthTable
