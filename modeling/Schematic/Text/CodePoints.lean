namespace Schematic.Text

/-!
# Sets of code points

A property of characters, given as closed intervals of code points.

* `CodePoints` — the intervals;
* `CodePoints.contains` — membership of a character;
* `CodePoints.contains_iff` — a member is a character that lies in one of the intervals.
-/

/-- A set of code points as a list of intervals, both ends included. -/
structure CodePoints where
  /-- The intervals, as pairs of a first and a last code point. -/
  ranges : List (Nat × Nat)

namespace CodePoints

/-- Whether the code point of `c` lies in one of the intervals. -/
def contains (s : CodePoints) (c : Char) : Bool :=
  s.ranges.any fun range => range.1 ≤ c.toNat && c.toNat ≤ range.2

/-- A character is in the set exactly if its code point lies between the ends of one of the
    intervals, both included. -/
theorem contains_iff {s : CodePoints} {c : Char} :
    s.contains c = true ↔ ∃ range ∈ s.ranges, range.1 ≤ c.toNat ∧ c.toNat ≤ range.2 := by
  simp [contains]

end CodePoints

end Schematic.Text
