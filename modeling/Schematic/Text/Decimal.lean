import Schematic.Text.WhiteSpace

namespace Schematic.Text

/-!
# Decimal integers

Reading signed decimal numerals, first as integers of any size and then as 64-bit words.

* `readNat?` — one or more ASCII digits;
* `readInt?` — the same behind an optional sign;
* `readInt64?` — the same with white space around it, in the range of `Int64`.
-/

/-- The number that a text of one or more ASCII digits stands for. -/
def readNat? (text : List Char) : Option Nat :=
  if text ≠ [] ∧ text.all Char.isDigit then some (Nat.ofDigitChars 10 text 0) else none

/-- The integer that ASCII digits behind at most one sign stand for. -/
def readInt? : List Char → Option Int
  | [] => none
  | c :: cs =>
    if c = '-' then (readNat? cs).map fun n => -(n : Int)
    else if c = '+' then (readNat? cs).map fun n => (n : Int)
    else (readNat? (c :: cs)).map fun n => (n : Int)

/-- The 64-bit word that a numeral stands for, white space around it allowed. A value outside
    the range of `Int64` is refused. -/
def readInt64? (text : String) : Option Int64 :=
  (readInt? (trim text.toList)).bind fun value =>
    if Int64.minValue.toInt ≤ value ∧ value ≤ Int64.maxValue.toInt then some (Int64.ofInt value)
    else none

end Schematic.Text
