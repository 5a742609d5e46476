import Schematic.Proofs.Progress

namespace Schematic.Netlist

open Text

/-!
# One token at a time

A netlist can be parsed while its tokens come in, with one token in each step: the entry of a line
is read at the end of the line, and the first error ends everything. This takes no more steps than
the text has characters, and one for its end, and it comes to the same as lexing the whole text
first.

* `Reading`, `Reading.step` — how far a netlist has been read, and how the next token is read;
* `Reading.outcome` — what a reading comes to, from all tokens that are left;
* `Reading.comesTo_step` — a step leaves fewer characters and the same outcome, or finishes with it;
* `Reading.iterate_step_start` — so a text is parsed in a number of steps that its length bounds;
* `progress_of_calls` — the calls that read a text, and the steps that parse it.

Each step is compared with the rest of the work. `outcome` says what a reading comes to if all
tokens that are left are lexed at once and then read line by line. There is one lemma for each thing
that the next token can be, and each says that the step does not change this outcome. The lemma
about a token that begins no line is the delicate one: the step refuses it at once, while the whole
text is lexed first and might have a lexical error further on. Such an error comes to light on its
own line, and there not before the first token of the line has been looked at.

A step that goes on leaves fewer characters, so that the steps end, and `ComesTo` carries the bound
and the outcome through the induction together.
-/

/-- How far a netlist has been read. -/
inductive Reading where
  /-- The next token is at the cursor. In front of it there are these tokens in the same line and
      these entries of earlier lines. -/
  | inLine (cursor : Cursor) (line : List Token) (entries : List Entry)
  /-- There is nothing more to read. -/
  | finished (outcome : Except Error Netlist)

namespace Reading

/-- The netlist has not been read yet. -/
def start (text : String) : Reading := .inLine (.ofText text) [] []

/-- Reads one token. Any error ends the reading, and so does the end of the input. A token that
    begins no line is refused at once, but the rest of a line is looked at when all of it has been
    read. -/
def step : Reading → Reading
  | .finished outcome => .finished outcome
  | .inLine cursor line entries =>
    match cursor.next with
    | (.error error, _) => .finished (.error error)
    | (.ok token, stop) =>
      if token.kind = .endOfInput then
        .finished ((parseLine none line).map fun entry => ofEntries (entries ++ entry.toList))
      else if token.kind = .newline then
        match parseLine none line with
        | .error error => .finished (.error error)
        | .ok entry => .inLine stop [] (entries ++ entry.toList)
      else if line = [] ∧ Entry.canBegin token.kind = false then
        .finished (token.refuse (.misplacedToken token.text))
      else .inLine stop (line ++ [token]) entries

/-- What a reading comes to, from the tokens that have been read in the line and all that are
    left. -/
def outcome : Reading → Except Error Netlist
  | .finished outcome => outcome
  | .inLine cursor line entries =>
    (parseLines cursor.tokens.fault (splitLines (line ++ cursor.tokens.tokens))).map
      fun following => ofEntries (entries ++ following)

/-- From the beginning, what is left is the whole text, and the outcome is what parsing gives. -/
theorem outcome_start (text : String) : (start text).outcome = parse text := rfl

end Reading

/-! ### Lines that have not ended -/

/-- The tokens are the first ones of a line that is not refused before its end. -/
structure IsOpenLine (line : List Token) : Prop where
  inside : ∀ token ∈ line, token.kind ≠ .newline
  begins : ∀ head ∈ line.head?, Entry.canBegin head.kind = true

namespace IsOpenLine

variable {line : List Token} {token : Token}

/-- No token has been read of the line, so that it can begin with any. -/
theorem nil : IsOpenLine [] := ⟨by simp, by simp⟩

/-- A line goes on with any token but a newline, if it does not begin with this token. If it does,
    the token has to be one that a line can begin with. -/
theorem concat (h : IsOpenLine line) (htoken : token.kind ≠ .newline)
    (hbegins : line = [] → Entry.canBegin token.kind = true) : IsOpenLine (line ++ [token]) where
  inside other hother := by
    rcases List.mem_append.mp hother with hmem | hmem
    · exact h.inside other hmem
    · rwa [List.mem_singleton.mp hmem]
  begins head hhead := by
    cases line with
    | nil =>
      obtain rfl := Option.some.inj hhead
      exact hbegins rfl
    | cons first others => exact h.begins head hhead

/-- A fault in an open line is what the line is refused for. -/
theorem parseLine_fault (h : IsOpenLine line) (error : Error) :
    parseLine (some error) line = .error error := by
  cases line with
  | nil => rfl
  | cons head arguments => rw [parseLine, if_pos (h.begins head rfl)]

end IsOpenLine

/-- A line is refused for its first token alone if no line begins with this token, whatever comes
    behind it, a fault of the lexer included. -/
theorem parseLine_misplaced {head : Token} (h : Entry.canBegin head.kind = false)
    (fault : Option Error) (arguments : List Token) :
    parseLine fault (head :: arguments) = head.refuse (.misplacedToken head.text) := by
  cases fault with
  | some error => rw [parseLine, if_neg (by rw [h]; decide)]
  | none =>
    -- A directive and a name are what a line begins with, and the form is refused for any other
    -- kind.
    have hform : Entry.form head = head.refuse (.misplacedToken head.text) := by
      unfold Entry.form
      split
      case h_1 hkind | h_2 hkind =>
        rw [hkind] at h
        exact absurd h (by decide)
      case h_3 => rfl
    rw [parseLine, Entry.read, hform]
    rfl

namespace Reading

variable {cursor stop : Cursor} {line : List Token} {entries : List Entry} {token : Token}

/-! ### What the next token does -/

/-- A lexical error in a line that can still go on is what the whole reading comes to. -/
theorem outcome_of_fault {error : Error} (read : cursor.next = (.error error, stop))
    (h : IsOpenLine line) : (inLine cursor line entries).outcome = .error error := by
  rw [outcome, Cursor.tokens_eq, read]
  simp only [List.append_nil, splitLines_of_line h.inside, parseLines, h.parseLine_fault]
  rfl

/-- At the end of the input, the last line is read like any other and nothing follows it. -/
theorem outcome_of_end (read : cursor.next = (.ok token, stop)) (ended : token.kind = .endOfInput)
    (h : IsOpenLine line) :
    (inLine cursor line entries).outcome =
      (parseLine none line).map fun entry => ofEntries (entries ++ entry.toList) := by
  rw [outcome, Cursor.tokens_eq, read]
  simp only [ended, if_true, List.append_nil, splitLines_of_line h.inside, parseLines]
  cases parseLine none line <;> rfl

/-- At the end of a line, its entry is read before anything behind it counts, and if it is refused,
    then nothing behind it does. -/
theorem outcome_of_newline (read : cursor.next = (.ok token, stop)) (ended : token.kind = .newline)
    (h : IsOpenLine line) :
    (inLine cursor line entries).outcome =
      (parseLine none line).bind fun entry =>
        (inLine stop [] (entries ++ entry.toList)).outcome := by
  have more : token.kind ≠ .endOfInput := by rw [ended]; decide
  rw [outcome, Cursor.tokens_eq, read]
  simp only [more, if_false, splitLines_append ended, splitLines_of_line h.inside,
    List.singleton_append, parseLines_cons (.inl (splitLines_ne_nil _))]
  -- The lines behind this one are read from no entries, and their entries are put behind the
  -- others.
  cases parseLine none line with
  | error error => rfl
  | ok entry =>
    simp only [outcome, List.nil_append, List.append_assoc]
    cases parseLines stop.tokens.fault (splitLines stop.tokens.tokens) <;> rfl

/-- A token that begins no line is what the reading is refused for, even if there is a lexical error
    behind it on the same line. -/
theorem outcome_of_misplaced (read : cursor.next = (.ok token, stop))
    (more : token.kind ≠ .endOfInput) (inside : token.kind ≠ .newline)
    (h : Entry.canBegin token.kind = false) :
    (inLine cursor [] entries).outcome = token.refuse (.misplacedToken token.text) := by
  have hlines : ∃ arguments lines,
      splitLines (token :: stop.tokens.tokens) = (token :: arguments) :: lines := by
    rw [splitLines, if_neg inside]
    split <;> exact ⟨_, _, rfl⟩
  obtain ⟨arguments, lines, hlines⟩ := hlines
  rw [outcome, Cursor.tokens_eq, read]
  simp only [more, if_false, List.nil_append, hlines]
  -- The first line is refused in the same way when it is the last one, and perhaps not all read.
  cases lines with
  | nil => simp only [parseLines, parseLine_misplaced h, Token.refuse]; rfl
  | cons next lines => simp only [parseLines, parseLine_misplaced h, Token.refuse]; rfl

/-- A token that goes on with the line moves from the cursor to the open line and changes nothing
    else. -/
theorem outcome_of_token (read : cursor.next = (.ok token, stop))
    (more : token.kind ≠ .endOfInput) :
    (inLine cursor line entries).outcome = (inLine stop (line ++ [token]) entries).outcome := by
  have htokens : cursor.tokens = ⟨token :: stop.tokens.tokens, stop.tokens.fault⟩ := by
    rw [Cursor.tokens_eq, read]
    exact if_neg more
  rw [outcome, outcome, htokens, List.append_assoc, List.singleton_append]

/-! ### Steps -/

/-- The reading is finished, or it stands in an open line in front of fewer characters than
    `length`, and it comes to `outcome`. -/
inductive ComesTo (length : Nat) (outcome : Except Error Netlist) : Reading → Prop
  | finished : ComesTo length outcome (.finished outcome)
  | inLine {cursor : Cursor} {line : List Token} {entries : List Entry}
      (hlength : cursor.rest.length < length) (hline : IsOpenLine line)
      (houtcome : (inLine cursor line entries).outcome = outcome) :
      ComesTo length outcome (.inLine cursor line entries)

/-- Each step uses up characters or finishes the reading, and what it comes to stays the same. What
    the step does depends on the next token, and what it comes to is known for each. -/
theorem comesTo_step (cursor : Cursor) (h : IsOpenLine line) (entries : List Entry) :
    ComesTo cursor.rest.length (inLine cursor line entries).outcome
      (inLine cursor line entries).step := by
  rcases read : cursor.next with ⟨error | token, stop⟩
  case error =>
    rw [step, read, outcome_of_fault read h]
    exact .finished
  -- The cases of `step`, in its order: each has its own reason why the outcome is the same.
  by_cases ended : token.kind = .endOfInput
  case pos =>
    rw [outcome_of_end read ended h]
    simp only [step, read, ended, if_true]
    exact .finished
  have hlength := Cursor.length_rest_next_lt read ended
  by_cases newline : token.kind = .newline
  case pos =>
    rw [outcome_of_newline read newline h]
    simp only [step, read, newline, if_true]
    cases parseLine none line with
    | error error => exact .finished
    | ok entry => exact .inLine hlength .nil rfl
  by_cases misplaced : line = [] ∧ Entry.canBegin token.kind = false
  case pos =>
    obtain ⟨rfl, hkind⟩ := misplaced
    rw [outcome_of_misplaced read ended newline hkind]
    simp only [step, read, ended, newline, hkind, and_self, if_true, if_false]
    exact .finished
  case neg =>
    rw [outcome_of_token read ended]
    simp only [step, read, ended, newline, misplaced, if_false]
    refine .inLine hlength (h.concat newline fun hempty => ?_) rfl
    simpa [hempty] using misplaced

/-- A finished reading stays as it is. -/
theorem iterate_step_finished (outcome : Except Error Netlist) (steps : Nat) :
    step^[steps] (.finished outcome) = .finished outcome :=
  Function.iterate_fixed rfl steps

/-- With fewer characters after each step, the reading is finished in the end. To be finished is to
    stay so, and so it does not matter if there are more steps than needed. -/
theorem ComesTo.iterate_step {reading : Reading} {outcome : Except Error Netlist}
    {length steps : Nat} (h : ComesTo length outcome reading) (hsteps : length ≤ steps) :
    step^[steps] reading = .finished outcome := by
  induction steps generalizing reading length with
  | zero =>
    cases h with
    | finished => rfl
    -- No reading stands in front of fewer characters than none.
    | inLine hlength => omega
  | succ steps ih =>
    rw [Function.iterate_succ_apply]
    cases h with
    | finished => exact iterate_step_finished outcome steps
    | @inLine cursor line entries hlength hline houtcome =>
      have hstep := comesTo_step cursor hline entries
      rw [houtcome] at hstep
      exact ih hstep (by omega)

/-- A text is parsed in one step for each character and one for the end of the input. -/
theorem iterate_step_start (text : String) :
    step^[text.length + 1] (start text) = .finished (parse text) := by
  have h : ComesTo (text.length + 1) (parse text) (start text) :=
    .inLine (by simp [Cursor.ofText, String.length_toList]) .nil (outcome_start text)
  exact h.iterate_step le_rfl

end Reading

/-- However often a lexer has been called, with or without errors, another call uses up a character
    that belongs to no gap, or it finds nothing but a gap in front of the end of the input, or
    behind the gap a character that begins no token and stays where it is. Once it has come to the
    end or to such a character, the lexer gives the same again for ever. So a text has no more
    tokens in front of its end or its first error than it has characters, and a parser that reads
    one token in each step is finished after as many steps and one. -/
theorem progress_of_calls (text : String) :
    let start := Cursor.ofText text
    let tokens := start.tokens.tokens
    (∀ calls, let cursor := Cursor.onward^[calls] start
      cursor.Answer cursor.next ∧
        (IsIdle cursor.next.1 →
          ∀ further, (Cursor.onward^[further] cursor).next = cursor.next)) ∧
    tokens.length ≤ text.length ∧
    (∀ i token, tokens[i]? = some token →
      (Cursor.onward^[i] start).next.1 = .ok token ∧ token.kind ≠ .endOfInput) ∧
    IsLast (Cursor.onward^[tokens.length] start).next.1 ∧
    Reading.step^[text.length + 1] (.start text) = .finished (parse text) := by
  obtain ⟨htokens, hlast⟩ := (Cursor.ofText text).calls_tokens
  refine ⟨fun calls => ⟨?answer, ?again⟩, ?length, htokens, hlast, ?parse⟩
  case answer => exact Cursor.answer_next _
  case again => exact Cursor.next_iterate_onward
  case length =>
    rw [← String.length_toList]
    exact (Cursor.ofText text).length_tokens_le
  case parse => exact Reading.iterate_step_start text

/-- Behind an unknown escape, reading goes on. It comes to a character that begins no token and
    stays there, but the netlist is refused for the first error. -/
theorem progress_behind_escape :
    let text := "x \"\\y @\n"
    let unknown : Error := .lexical ⟨1, 6⟩ (.unknownEscape 'y')
    let unexpected : Except Error Token := .error (.lexical ⟨1, 7⟩ (.unexpectedCharacter '@'))
    let cursor := Cursor.onward^[2] (.ofText text)
    (Cursor.ofText text).next.1 = .ok ⟨.identifier, "x", ⟨1, 1⟩⟩ ∧
    (Cursor.ofText text).onward.next.1 = .error unknown ∧
    (∀ further, (Cursor.onward^[further] cursor).next = (unexpected, ⟨['@', '\n'], ⟨1, 7⟩⟩)) ∧
    Reading.step^[9] (.start text) = .finished (.error unknown) := by
  intro text unknown unexpected cursor
  have houtcome : cursor.next.1 = unexpected := by decide +kernel
  have hrest : cursor.next.2.rest = ['@', '\n'] := by decide +kernel
  have hposition : cursor.next.2.position = ⟨1, 7⟩ := by decide +kernel
  have hnext : cursor.next = (unexpected, ⟨['@', '\n'], ⟨1, 7⟩⟩) := by
    rw [← houtcome, ← hrest, ← hposition]
  have hidle : IsIdle cursor.next.1 := by
    rw [houtcome]
    trivial
  have hlength : text.length = 8 := by decide +kernel
  have hparse : parse text = .error unknown := by decide +kernel
  obtain ⟨hcalls, -, htokens, -, hsteps⟩ := progress_of_calls text
  refine ⟨?token, by decide +kernel, fun further => ?again, ?parse⟩
  case token => exact (htokens 0 ⟨.identifier, "x", ⟨1, 1⟩⟩ (by decide +kernel)).1
  case again => exact ((hcalls 2).2 hidle further).trans hnext
  case parse =>
    rw [hlength, hparse] at hsteps
    exact hsteps

end Schematic.Netlist
