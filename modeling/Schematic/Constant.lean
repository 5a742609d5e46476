namespace Schematic

/-!
# Constants

The values that literals hold and netlists write inline.

* `Constant` — a truth value, a 64-bit integer or a text;
* `Constant.display` — its form in names and listings;
* `Storage`, `Constant.storage` — which of the three it is.
-/

/-- The three kinds of value that a constant can be. -/
inductive Storage where
  | bool
  | int
  | string
deriving DecidableEq, Repr

/-- The name of the kind. -/
def Storage.name : Storage → String
  | .bool => "bool"
  | .int => "int"
  | .string => "string"

/-- A constant value. -/
inductive Constant where
  | bool (value : Bool)
  | int (value : Int64)
  | string (value : String)
deriving DecidableEq, Repr

namespace Constant

/-- Which kind of value this is. -/
def storage : Constant → Storage
  | .bool _ => .bool
  | .int _ => .int
  | .string _ => .string

/-- The form in names and listings: truth values are the bits 1 and 0, integers are decimal, texts
    stand for themselves. -/
def display : Constant → String
  | .bool value => if value then "1" else "0"
  | .int value => toString value.toInt
  | .string value => value

end Constant

end Schematic
