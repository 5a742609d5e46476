namespace Schematic

/-!
# Operators of expressions

* `Operator.symbol` — the sign that stands in the names of expressions;
* `Operator.ofKeyword?` — reads a word or a sign, without regard to ASCII case.
-/

/-- A binary operator. -/
inductive Operator where
  | add
  | sub
  | mul
  | div
deriving DecidableEq, Repr

namespace Operator

/-- The sign of the operator. -/
def symbol : Operator → String
  | .add => "+"
  | .sub => "-"
  | .mul => "*"
  | .div => "/"

/-- The word for the operator. A netlist writes the word, since a sign is no token of its own. -/
def word : Operator → String
  | .add => "add"
  | .sub => "sub"
  | .mul => "mul"
  | .div => "div"

/-- Reads a word, in any mixture of upper and lower ASCII letters, or a sign. -/
def ofKeyword? (text : String) : Option Operator :=
  match text.toLower with
  | "add" | "+" => some .add
  | "sub" | "-" => some .sub
  | "mul" | "*" => some .mul
  | "div" | "/" => some .div
  | _ => none

/-- The sign of an operator is read as that operator, so that the name of an expression can be taken
    apart again. -/
theorem ofKeyword?_symbol (op : Operator) : ofKeyword? op.symbol = some op := by
  cases op <;> decide +kernel

/-- The word for an operator, which is the form that a printed netlist has, is read as that
    operator. -/
theorem ofKeyword?_word (op : Operator) : ofKeyword? op.word = some op := by
  cases op <;> decide +kernel

end Operator

end Schematic
