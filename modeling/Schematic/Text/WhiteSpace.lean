import Schematic.Text.CodePoints

namespace Schematic.Text

/-!
# White space

The Unicode property White_Space.

* `isWhiteSpace` — membership;
* `trim` — a text without the white space at its two ends.
-/

/-- The characters with the property White_Space. -/
def whiteSpaceRanges : CodePoints where
  ranges := [
    (0x9, 0xd), (0x20, 0x20), (0x85, 0x85), (0xa0, 0xa0), (0x1680, 0x1680), (0x2000, 0x200a),
    (0x2028, 0x2029), (0x202f, 0x202f), (0x205f, 0x205f), (0x3000, 0x3000)]

/-- A character with the property White_Space. -/
def isWhiteSpace (c : Char) : Bool :=
  whiteSpaceRanges.contains c

/-- The text without the white space at its two ends. -/
def trim (text : List Char) : List Char :=
  ((text.dropWhile isWhiteSpace).reverse.dropWhile isWhiteSpace).reverse

/-- A text whose two ends are no white space is its own trimmed form. -/
theorem trim_eq_self {text : List Char} (first : ∀ c ∈ text.head?, isWhiteSpace c = false)
    (last : ∀ c ∈ text.getLast?, isWhiteSpace c = false) : trim text = text := by
  have keep : ∀ {l : List Char}, (∀ c ∈ l.head?, isWhiteSpace c = false) →
      l.dropWhile isWhiteSpace = l := by
    intro l h
    cases l with
    | nil => rfl
    | cons c cs => simp [h c (by simp)]
  rw [trim, keep first, keep (by simpa using last), List.reverse_reverse]

end Schematic.Text
