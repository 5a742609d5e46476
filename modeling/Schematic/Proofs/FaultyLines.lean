import Schematic.Proofs.FaultPositions

namespace Schematic.Netlist

open Text

/-!
# The line at fault

A text that cannot be parsed has a first line that cannot be parsed alone, and the error is reported
there, or behind an unknown escape at its end.

* `textLines`, `textLines_induction` — the lines of a text, and induction on them;
* `IsFaultyLine` — the first line that cannot be parsed alone;
* `concerns_of_line`, `concerns_of_lines` — what is wrong with the first line of a text;
* `faultyLine_of_error` — what is wrong with a text.

The induction is on the lines of the text. A first line that cannot be parsed alone is the faulty
one, and the text has an error there; it may be another error than the line has alone, since a
backslash at the end of a line escapes the newline behind it. A first line that can be parsed is
passed over: the rest is a text with one line less, and its error is that of the whole, one line
further down. That is why errors are said to concern a line, with its number as a parameter.
-/

/-! ### Lines of texts -/

/-- The lines of a text, without the newlines between them. -/
def textLines (text : String) : List String := (text.toList.splitOn '\n').map String.ofList

/-- A text without a newline is one line. -/
theorem textLines_of_line {text : String} (h : '\n' ∉ text.toList) : textLines text = [text] := by
  rw [textLines, List.splitOn_eq_singleton h, List.map_singleton, String.ofList_toList]

/-- A newline behind a line separates it from the lines of what follows. -/
theorem textLines_append {first : String} (h : '\n' ∉ first.toList) (second : String) :
    textLines (first ++ "\n" ++ second) = first :: textLines second := by
  have hinside : ∀ c ∈ first.toList, (c == '\n') = false := by
    intro c hc
    simpa using fun heq : c = '\n' => h (heq ▸ hc)
  have htext : (first ++ "\n" ++ second).toList = first.toList ++ '\n' :: second.toList := by simp
  rw [textLines, htext, List.splitOn_eq_splitOnP,
    List.splitOnP_append_cons_of_forall_mem hinside '\n' rfl, List.map_cons,
    ← List.splitOn_eq_splitOnP, String.ofList_toList, textLines]

/-- A text is a line, or a line with a newline and a text behind it. What is to be proved of all
    texts is proved for one line and for one more line in front. -/
theorem textLines_induction {motive : String → Prop}
    (line : ∀ text, '\n' ∉ text.toList → motive text)
    (lines : ∀ first second, '\n' ∉ first.toList → motive second →
      motive (first ++ "\n" ++ second)) (text : String) : motive text := by
  -- A text is cut at its first newline, if it has one, and what is behind it is shorter.
  by_cases h : '\n' ∈ text.toList
  case neg => exact line text h
  case pos =>
    obtain ⟨first, second, hsplit, hfirst⟩ := List.eq_append_cons_of_mem h
    have htext : text = String.ofList first ++ "\n" ++ String.ofList second := by
      rw [← String.toList_inj, hsplit]
      simp
    rw [htext]
    exact lines _ _ (by simpa using hfirst) (textLines_induction line lines _)
termination_by text.length
decreasing_by
  have hnewline : "\n".length = 1 := rfl
  rw [htext, String.length_append, String.length_append]
  omega

/-- The line behind `k` others is the first one of the text that cannot be parsed alone. -/
structure IsFaultyLine (text : String) (k : Nat) (line : String) : Prop where
  place : (textLines text)[k]? = some line
  fails : ∃ error, parse line = .error error
  earlier : ∀ j < k, ∀ other, (textLines text)[j]? = some other →
    ∃ netlist, parse other = .ok netlist

namespace IsFaultyLine

variable {first second line : String} {k : Nat}

/-- A first line that cannot be parsed alone is the faulty one. -/
theorem here (htext : ∃ others, textLines first = line :: others)
    (h : ∃ error, parse line = .error error) : IsFaultyLine first 0 line where
  place := by
    obtain ⟨others, htext⟩ := htext
    rw [htext, List.getElem?_cons_zero]
  fails := h
  earlier j hj := absurd hj (Nat.not_lt_zero j)

/-- Behind a line that can be parsed, the faulty line is that of the rest, one line further down. -/
theorem behind {netlist : Netlist} (hline : '\n' ∉ first.toList)
    (hfirst : parse first = .ok netlist) (h : IsFaultyLine second k line) :
    IsFaultyLine (first ++ "\n" ++ second) (k + 1) line where
  place := by rw [textLines_append hline, List.getElem?_cons_succ, h.place]
  fails := h.fails
  earlier j hj other hother := by
    rw [textLines_append hline] at hother
    cases j with
    | zero => exact ⟨netlist, Option.some.inj hother ▸ hfirst⟩
    | succ j => exact h.earlier j (Nat.lt_of_succ_lt_succ hj) other hother

/-- There is one first line. -/
theorem unique {text other : String} {j : Nat} (h : IsFaultyLine text k line)
    (h' : IsFaultyLine text j other) : k = j ∧ line = other := by
  -- The earlier one of two would be both refused and accepted.
  have not_lt {k j : Nat} {line other : String} (h : IsFaultyLine text k line)
      (h' : IsFaultyLine text j other) : ¬k < j := by
    intro hlt
    obtain ⟨error, herror⟩ := h.fails
    obtain ⟨netlist, hnetlist⟩ := h'.earlier k hlt line h.place
    simp [herror] at hnetlist
  obtain rfl : k = j := Nat.le_antisymm (Nat.not_lt.mp (not_lt h' h)) (Nat.not_lt.mp (not_lt h h'))
  exact ⟨rfl, Option.some.inj (h.place.symm.trans h'.place)⟩

end IsFaultyLine

/-! ### Errors -/

/-- A text cannot be parsed exactly if its entries cannot be read, and the error is the same. -/
theorem parse_eq_error {text : String} {error : Error} :
    parse text = .error error ↔ readEntries (.ofText text) = .error error := by
  rw [parse_eq]
  cases readEntries (.ofText text) <;> simp [Except.map]

/-- What is wrong with a line is reported on it. -/
theorem concerns_of_line {line : String} {error : Error} (hline : '\n' ∉ line.toList)
    (h : readEntries (.ofText line) = .error error) : error.Concerns 1 line.toList :=
  have hstands : (Cursor.ofText line).StandsIn line.toList :=
    ⟨hline, [], line.toList, [], rfl, (List.append_nil _).symm, rfl, by simp [EndsLine]⟩
  hstands.fails_readEntries rfl (Cursor.newline_not_mem_tokens hline) error h

/-- What is wrong with the first line of a text is reported on it, whatever the other lines are. -/
theorem concerns_of_lines {first second : String} {fault error : Error}
    (hfirst : '\n' ∉ first.toList) (hfault : readEntries (.ofText first) = .error fault)
    (h : readEntries (.ofText (first ++ "\n" ++ second)) = .error error) :
    error.Concerns 1 first.toList := by
  rw [ofText_append_newline] at h
  cases hlexical : (Cursor.ofText first).tokens.fault with
  | none =>
    rw [readEntries_before hlexical, hfault] at h
    obtain rfl := Except.error.inj h
    exact concerns_of_line hfirst hfault
  | some fault =>
    -- The fault can be another one than in the line alone, but it is behind the same tokens.
    obtain ⟨other, hother⟩ := Cursor.tokens_of_faulty_line hlexical second.toList
    have hstands : ((Cursor.ofText first).before ('\n' :: second.toList)).StandsIn first.toList :=
      ⟨hfirst, [], first.toList, _, rfl, rfl, rfl, by simp [EndsLine]⟩
    refine hstands.fails_readEntries rfl ?_ error h
    rw [hother]
    exact Cursor.newline_not_mem_tokens hfirst

/-- A text that cannot be parsed has a first line that cannot be parsed alone, and the error is
    reported on this line, a lexical one at one of its characters. Only an unknown escape at the end
    of the line is reported behind it: in the column behind its last character, or on the next line
    if what is escaped is the newline. -/
theorem faultyLine_of_error {text : String} {error : Error} (h : parse text = .error error) :
    ∃ k line, IsFaultyLine text k line ∧ error.Concerns (k + 1) line.toList := by
  rw [parse_eq_error] at h
  induction text using textLines_induction generalizing error with
  | line text hline =>
    exact ⟨0, text, .here ⟨[], textLines_of_line hline⟩ ⟨error, parse_eq_error.mpr h⟩,
      concerns_of_line hline h⟩
  | lines first second hline ih =>
    -- The first line is the faulty one, or it can be passed over.
    cases hfirst : readEntries (.ofText first) with
    | error fault =>
      exact ⟨0, first, .here ⟨_, textLines_append hline second⟩ ⟨fault, parse_eq_error.mpr hfirst⟩,
        concerns_of_lines hline hfirst h⟩
    | ok entries =>
      have hparse : parse first = .ok (ofEntries entries) := by rw [parse_eq, hfirst]; rfl
      rw [readEntries_append_newline hfirst, newlines, List.count_eq_zero_of_not_mem hline] at h
      cases hsecond : readEntries (.ofText second) with
      | ok others => simp [hsecond, Except.map] at h
      | error fault =>
        obtain ⟨k, line, hfaulty, hconcerns⟩ := ih hsecond
        obtain rfl : fault.shift 1 = error := by simpa [hsecond, Except.map] using h
        exact ⟨k + 1, line, hfaulty.behind hline hparse, hconcerns.shift 1⟩

/-- A backslash at the end of the second line, where the error is reported on the third. The line
    alone would be refused for another error, as its string has no end. -/
theorem faultyLine_of_escaped_newline :
    let line := "connect a \"x\\"
    let text := "signal a bit" ++ "\n" ++ (line ++ "\n" ++ "signal b bit")
    let error := Error.lexical ⟨3, 1⟩ (.unknownEscape '\n')
    parse text = .error error ∧ IsFaultyLine text 1 line ∧ error.Concerns 2 line.toList ∧
      ¬error.Within 2 line.toList := by
  intro line text error
  have hfirst : parse "signal a bit" = .ok { nodes := [⟨some "a", .signal, some "bit", 1⟩] } := by
    decide +kernel
  have hsecond : parse line = .error (.lexical ⟨1, 11⟩ .unterminatedString) := by decide +kernel
  have hparse : parse text = .error error := by decide +kernel
  have hline : IsFaultyLine text 1 line :=
    .behind (by decide) hfirst (.here ⟨_, textLines_append (by decide) _⟩ ⟨_, hsecond⟩)
  have hwithin : ¬(Error.lexical ⟨3, 1⟩ (.unknownEscape '\n')).Within 2 line.toList := nofun
  obtain ⟨k, other, hfaulty, hconcerns⟩ := faultyLine_of_error hparse
  obtain ⟨rfl, rfl⟩ := hfaulty.unique hline
  exact ⟨hparse, hline, hconcerns, hwithin⟩

end Schematic.Netlist
