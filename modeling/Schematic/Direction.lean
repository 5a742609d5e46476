namespace Schematic

/-!
# Port directions

The direction of a terminal on the boundary of a design.

* `Direction.keyword`, `Direction.ofKeyword?` — its written form, read without regard to ASCII case;
* `Direction.flip` — the same terminal seen from the other side.
-/

/-- The direction of a terminal on the boundary of a design. -/
inductive Direction where
  /-- Into the design. -/
  | input
  /-- Out of the design. -/
  | output
  /-- Not said. -/
  | unspecified
deriving DecidableEq, Repr

namespace Direction

/-- The written form. -/
def keyword : Direction → String
  | .input => "in"
  | .output => "out"
  | .unspecified => "none"

/-- Reads the written form in any mixture of upper and lower ASCII letters. -/
def ofKeyword? (text : String) : Option Direction :=
  match text.toLower with
  | "in" => some .input
  | "out" => some .output
  | "none" => some .unspecified
  | _ => none

/-- Exchanges in and out. A terminal without a direction stays without one. -/
def flip : Direction → Direction
  | .input => .output
  | .output => .input
  | .unspecified => .unspecified

/-- A terminal seen from the other side of the other side is the terminal itself: flipping a port
    twice puts its direction back. -/
@[simp] theorem flip_flip (direction : Direction) : direction.flip.flip = direction := by
  cases direction <;> rfl

/-- The written form is read back. -/
theorem ofKeyword?_keyword (direction : Direction) :
    ofKeyword? direction.keyword = some direction := by
  cases direction <;> decide +kernel

end Direction

end Schematic
