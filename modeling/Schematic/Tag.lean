namespace Schematic

/-!
# Tags of nodes

* `Tag` — the five variants of a node;
* `Tag.name` — the word for each.
-/

/-- The variants of a node. -/
inductive Tag where
  /-- A terminal on the boundary of the design. -/
  | port
  /-- An internal wire. -/
  | signal
  /-- A constant. -/
  | literal
  /-- A value that a user of the design may set. -/
  | parameter
  /-- An operation on two other nodes. -/
  | expression
deriving DecidableEq, Repr

/-- The word for the variant. -/
def Tag.name : Tag → String
  | .port => "Port"
  | .signal => "Signal"
  | .literal => "Literal"
  | .parameter => "Parameter"
  | .expression => "Expression"

end Schematic
