namespace Schematic.Netlist

/-!
# Gaps between tokens

A gap consists of blanks and of comments. A comment runs from its mark up to the end of its line,
which belongs to the line and not to the comment.

* `GapState`, `GapState.step?` — where in a gap one is, character by character;
* `splitGap` — a text cut behind the gap at its front;
* `splitGap_append` — the two parts are the text.
-/

/-- Where in a gap one is. -/
inductive GapState where
  /-- Outside a comment. -/
  | blank
  /-- Inside a comment. -/
  | comment
deriving DecidableEq, Repr

/-- The state behind the character `c`, or `none` if the gap ends before it. -/
def GapState.step? (state : GapState) (c : Char) : Option GapState :=
  match state with
  | .comment => if c = '\n' then none else some .comment
  | .blank =>
    if c = ' ' ∨ c = '\t' ∨ c = '\r' then some .blank
    else if c = '#' ∨ c = ';' then some .comment
    else none

/-- The gap at the front of a text, and the rest. -/
def splitGap : GapState → List Char → List Char × List Char
  | _, [] => ([], [])
  | state, c :: cs =>
    match state.step? c with
    | some next => (c :: (splitGap next cs).1, (splitGap next cs).2)
    | none => ([], c :: cs)

/-- The gap and the rest make up the text. -/
theorem splitGap_append (state : GapState) (text : List Char) :
    (splitGap state text).1 ++ (splitGap state text).2 = text := by
  fun_induction splitGap state text with
  | case1 => rfl
  | case2 state c cs next _ ih => simp [ih]
  | case3 => rfl

/-- The rest behind a gap is no longer than the text. -/
theorem length_splitGap_le (state : GapState) (text : List Char) :
    (splitGap state text).2.length ≤ text.length := by
  have h := congrArg List.length (splitGap_append state text)
  rw [List.length_append] at h
  omega

end Schematic.Netlist
