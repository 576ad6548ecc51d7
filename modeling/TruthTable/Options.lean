import Std.Data.ExtTreeMap
import TruthTable.Spelling

/-!
# Rows and the options of a table

The options say in which order the rows come, how truth values are written, in which notation the
table is shown, and how many symbols it may have. The default table is in LaTeX, with `1` and `0`,
for at most sixteen symbols, and its first column changes fastest from false to true.

A valuation gives truth values to some symbols; the others count as false. A table over `n`
symbols has `2 ^ n` rows. Row `r` gives the symbol in column `i` the bit `i` of `r`, or the bit
`n - 1 - i` if the columns are reversed, and the opposite value if the rows are reversed. A row
number has 64 bits, and the bits beyond them count as zeros. The places of bits are numbers of 32
bits.
-/

namespace TruthTable

/-- Which assignment a row stands for. Either flag only permutes the rows. -/
structure RowOrder where
  /-- Whether the first symbol stands for the highest bit of the row number, not the lowest. -/
  reverseColumns : Bool := false
  /-- Whether every value is inverted, so that the rows run from true to false. -/
  reverseRows : Bool := false
  deriving DecidableEq, Repr

/-- How a table is made. -/
structure Options extends RowOrder where
  trueText : String := "1"
  falseText : String := "0"
  format : Format := .latex
  /-- The greatest number of symbols that is asked for; `symbolCap` bounds it. -/
  maxSymbols : Nat := 16
  deriving DecidableEq, Repr

namespace Options

/-- The greatest number of symbols that any table has: the row count fits 64 bits. -/
def symbolCap : Nat := 63

/-- The greatest number of symbols that a table with these options has. -/
def symbolLimit (options : Options) : Nat :=
  min options.maxSymbols symbolCap

/-- The text for a truth value. -/
def display (options : Options) (value : Bool) : String :=
  if value then options.trueText else options.falseText

/-- The number of characters that every truth value fits. -/
def valueWidth (options : Options) : Nat :=
  max options.trueText.length options.falseText.length

end Options

/-! ## Valuations and rows -/

/-- Truth values of some symbols. Two valuations that give every symbol the same are equal. -/
abbrev Valuation := Std.ExtTreeMap String Bool

/-- The value of a symbol, false where the valuation gives none. -/
def Valuation.value (valuation : Valuation) (name : String) : Bool :=
  valuation.getD name false

/-- One bit of a row number. Places are taken modulo `2 ^ 32`. -/
def rowBit (row : UInt64) (place : Nat) : Bool :=
  row.toBitVec.getLsbD place.toUInt32.toNat

/-- The value in a column of a row, in a table over `count` symbols. -/
def RowOrder.value (order : RowOrder) (count : Nat) (row : UInt64) (column : Nat) : Bool :=
  rowBit row (if order.reverseColumns then count - 1 - column else column) != order.reverseRows

/-- The valuation of a row in a table over some symbols. Of columns with the same symbol the last
one counts. -/
def Valuation.ofRow (order : RowOrder) (names : List String) (row : UInt64) : Valuation :=
  .ofList (names.mapIdx fun column name => (name, order.value names.length row column))

/-- The number of rows over `count` symbols, if it has no more than 64 bits. -/
def rowCount? (count : Nat) : Option Nat :=
  if count < 64 then some (Nat.pow 2 count) else none

end TruthTable
