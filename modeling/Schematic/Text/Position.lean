namespace Schematic.Text

/-!
# Positions in a text

* `Position` — a line and a column, both counted from one;
* `Position.advance`, `Position.after` — the position behind one or more characters;
* `Position.after_append` — positions add up along a text.
-/

/-- A place in a text. -/
structure Position where
  /-- The number of the line, from one. -/
  line : Nat
  /-- The number of the character in its line, from one. -/
  column : Nat
deriving DecidableEq, Repr

namespace Position

/-- The first place of a text. -/
def start : Position := ⟨1, 1⟩

/-- The place behind the character `c`. -/
def advance (position : Position) (c : Char) : Position :=
  if c = '\n' then ⟨position.line + 1, 1⟩ else ⟨position.line, position.column + 1⟩

/-- The place behind the characters `text`. -/
def after (position : Position) (text : List Char) : Position :=
  text.foldl advance position

/-- No character leaves a position where it is. -/
@[simp] theorem after_nil (position : Position) : position.after [] = position := rfl

/-- The position behind a text is found from its first character on, one character at a time. -/
@[simp] theorem after_cons (position : Position) (c : Char) (text : List Char) :
    position.after (c :: text) = (position.advance c).after text := rfl

/-- Positions add up along a text: behind two pieces is behind the second one, counted from behind
    the first. -/
theorem after_append (position : Position) (text more : List Char) :
    position.after (text ++ more) = (position.after text).after more := by
  simp [after]

/-- Each newline starts a line, and nothing else does: the line behind a text is the line in front
    of it and one more for every newline in it. -/
theorem line_after (position : Position) (text : List Char) :
    (position.after text).line = position.line + text.count '\n' := by
  induction text generalizing position with
  | nil => simp
  | cons c text ih =>
    rw [after_cons, ih, advance]
    by_cases h : c = '\n'
    · simp [h]
      omega
    · simp [h]

end Position

end Schematic.Text
