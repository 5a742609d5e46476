import Schematic.Proofs.Spelling

namespace Schematic.Netlist

open Text

/-!
# The same tokens in another layout

What a text declares depends on the kinds and the texts of its tokens alone. Gaps move a token to
another column, which nothing looks at, and no gap and no spelling moves it to another line: the
lines are counted by the tokens that end them.

* `Cursor.line_skipGap`, `Cursor.line_of_next` — on which line a token is, and what follows it;
* `Token.word`, `Token.flush` — a token without its place, and a token without its column;
* `Cursor.Lexes.flush_eq` — two texts with the same words have the same tokens on the same lines;
* `parseLines_flush` — columns have no influence on what is read;
* `parse_of_words` — two texts with the same words declare the same.

The texts are arbitrary and so is what stands between their tokens, so that nothing can be said by
comparing them character by character. Instead each token is moved to the first column of its line
(`flush`), and the two halves of the parser are looked at apart. The lexer counts lines by the
newlines among its tokens, for no gap and no spelling of another token has a newline in it; so two
sequences of the same words, read from the same line on, are the same once they are flush. The
reader of lines looks at kinds, texts and line numbers, and so gives the same for tokens that are
flush or not. Both together are the theorem, for accepted and refused texts alike.
-/

/-! ### Lines -/

/-- A gap ends with its line. A comment goes on up to the newline, which does not belong to it. -/
theorem IsGap.newline_not_mem {rest gap : List Char} (h : IsGap rest gap) : '\n' ∉ gap := by
  induction h with
  | nil => simp
  | blank hc _ ih =>
    rw [List.mem_cons, not_or]
    exact ⟨by rintro rfl; exact absurd hc (by decide), ih⟩
  | comment hmark hbody =>
    rw [List.mem_cons, not_or]
    exact ⟨by rintro rfl; exact absurd hmark (by decide), hbody⟩

/-- The end of a line is spelled as a newline, and nothing else is read as one. -/
theorem spelling_of_newline {text : List Char} {word : String}
    (read : (readLexeme text).reading = .ok (.newline, word)) :
    (readLexeme text).spelling = ['\n'] := by
  revert read
  fun_cases readLexeme text <;>
    simp [readDirective, readSigned, readRun, Lexeme.extend, Except.map]
  all_goals split <;> simp

namespace Cursor

variable {cursor other stop : Cursor} {token : Token}

/-- A gap does not reach behind the end of the line. -/
theorem line_skipGap (cursor : Cursor) : cursor.skipGap.position.line = cursor.position.line := by
  have hgap := (isGap_splitGap cursor.rest).newline_not_mem
  rw [skipGap, Position.line_after, List.count_eq_zero_of_not_mem hgap, Nat.add_zero]

/-- A token is on the line where the cursor stands, and so is what follows it, unless the token ends
    the line. -/
theorem line_of_next (read : cursor.next = (.ok token, stop)) :
    token.line = cursor.position.line ∧
      stop.position.line = cursor.position.line + if token.kind = .newline then 1 else 0 := by
  obtain ⟨_, rfl, reading, position, rfl⟩ := lexeme_of_next read
  refine ⟨by rw [Token.line, position, line_skipGap], ?_⟩
  rw [Position.line_after, line_skipGap]
  split
  case isTrue ended =>
    rw [ended] at reading
    rw [spelling_of_newline reading]
    rfl
  case isFalse inside =>
    rw [List.count_eq_zero_of_not_mem (newline_not_mem_readLexeme reading inside)]

end Cursor

/-! ### Tokens without their columns -/

/-- What a token is, wherever it stands. -/
def Token.word (token : Token) : TokenKind × String := (token.kind, token.text)

/-- The same token in the first column of its line. -/
def Token.flush (token : Token) : Token := { token with position := ⟨token.line, 1⟩ }

/-- Two tokens of the same word on the same line are the same but for their columns. -/
theorem Token.flush_eq {token other : Token} (hword : token.word = other.word)
    (hline : token.line = other.line) : token.flush = other.flush := by
  obtain ⟨hkind, htext⟩ := Prod.mk.inj hword
  rw [flush, flush, hkind, htext, hline]

/-- From two cursors on the same line, the same words are the same tokens but for their columns. How
    the words are spelled and what stands between them may differ at will. -/
theorem Cursor.Lexes.flush_eq {cursor other : Cursor} {tokens others : List Token}
    {last final : Token} (h : cursor.Lexes tokens last) (h' : other.Lexes others final)
    (hline : cursor.position.line = other.position.line)
    (hwords : tokens.map Token.word = others.map Token.word) :
    tokens.map Token.flush = others.map Token.flush := by
  -- The two cursors stay on the same line, since they meet the same ends of lines.
  induction h generalizing other others with
  | finish =>
    rw [List.map_nil, eq_comm, List.map_eq_nil_iff] at hwords
    rw [hwords]
  | step read _ _ ih =>
    cases h' with
    | finish => exact absurd hwords (by simp)
    | step read' _ h' =>
      obtain ⟨hword, hwords⟩ := List.cons.inj hwords
      obtain ⟨hhere, hnext⟩ := line_of_next read
      obtain ⟨hhere', hnext'⟩ := line_of_next read'
      have hkind : _ = _ := (Prod.mk.inj hword).1
      have htoken := Token.flush_eq hword (by rw [hhere, hhere', hline])
      have htokens := ih h' (by rw [hnext, hnext', hline, hkind]) hwords
      rw [List.map_cons, List.map_cons, htoken, htokens]

/-! ### Reading without columns -/

/-- A line is read from the kinds and texts of its tokens and from their lines. No reader looks at a
    column, and none puts one into an error. -/
theorem Form.read_flush (form : Form) (line : Nat) (arguments : List Token) :
    form.read line (arguments.map Token.flush) = form.read line arguments := by
  -- The number of arguments decides, and for each form all greater numbers are alike.
  cases form
  case graph =>
    match arguments with
    | [] | [_] | _ :: _ :: _ => rfl
  case signal | connect =>
    match arguments with
    | [] | [_] | [_, _] | _ :: _ :: _ :: _ => rfl
  case type | port | param =>
    match arguments with
    | [] | [_] | [_, _] | [_, _, _] | _ :: _ :: _ :: _ :: _ => rfl
  case expr =>
    match arguments with
    | [] | [_] | [_, _] | [_, _, _] | [_, _, _, _] | _ :: _ :: _ :: _ :: _ :: _ => rfl

/-- The form of an entry is chosen by the kind and the text of the first token, and then the
    arguments are read by this form, all of them without regard to columns. -/
theorem Entry.read_flush (head : Token) (arguments : List Token) :
    Entry.read head.flush (arguments.map Token.flush) = Entry.read head arguments := by
  have hform : Entry.form head.flush = Entry.form head := rfl
  have hline : head.flush.line = head.line := rfl
  simp only [Entry.read, hform, hline, Form.read_flush]

/-- Tokens are cut into lines by their kinds, which they keep when they are moved. -/
theorem splitLines_flush (tokens : List Token) :
    splitLines (tokens.map Token.flush) = (splitLines tokens).map (List.map Token.flush) :=
  splitLines_map (f := Token.flush) (fun _ => rfl) tokens

/-- A whole line of tokens is read without regard to columns, an empty one as nothing. -/
theorem parseLine_flush (tokens : List Token) :
    parseLine none (tokens.map Token.flush) = parseLine none tokens := by
  cases tokens with
  | nil => rfl
  | cons head arguments => simp only [parseLine, List.map_cons, Entry.read_flush]

/-- Lines are read without regard to columns. -/
theorem parseLines_flush (lines : List (List Token)) :
    parseLines none (lines.map (List.map Token.flush)) = parseLines none lines := by
  induction lines with
  | nil => rfl
  | cons line lines ih =>
    rw [List.map_cons, parseLines_cons (.inr rfl), parseLines_cons (.inr rfl), ih, parseLine_flush]

/-! ### Whole texts -/

/-- Two texts with the same words declare the same, on the same lines, or are refused with the same
    error on the same line. -/
theorem parse_of_words {first second : String} {tokens others : List Token} {last final : Token}
    (h : (Cursor.ofText first).Lexes tokens last) (h' : (Cursor.ofText second).Lexes others final)
    (hwords : tokens.map Token.word = others.map Token.word) : parse first = parse second := by
  have hflush := h.flush_eq h' rfl hwords
  rw [parse_eq, parse_eq, readEntries, readEntries, h.tokens_eq, h'.tokens_eq, ← parseLines_flush,
    ← splitLines_flush, hflush, splitLines_flush, parseLines_flush]

/-- Indentation, a carriage return, a comment with a quote in it, a comment on a line of its own and
    an escape in place of a tab make no difference. -/
theorem parse_of_escaped_tab :
    let plain := "signal a string\n\nconnect a \"\t\""
    let laidOut := "  signal a\tstring # \"\r\n;\n connect a\"\\t\"\r"
    (∃ tokens others last final, (Cursor.ofText plain).Lexes tokens last ∧
      (Cursor.ofText laidOut).Lexes others final ∧
      tokens.map Token.word = others.map Token.word ∧ parse plain = parse laidOut) ∧
    parse laidOut = .ok
      { nodes := [⟨some "a", .signal, some "string", 1⟩]
        connections := [⟨"a", .constant (.string "\t"), 3⟩] } := by
  intro plain laidOut
  have hplain : (Cursor.ofText plain).tokens.fault = none := by decide +kernel
  have hlaidOut : (Cursor.ofText laidOut).tokens.fault = none := by decide +kernel
  have hwords : (Cursor.ofText plain).tokens.tokens.map Token.word =
      (Cursor.ofText laidOut).tokens.tokens.map Token.word := by decide +kernel
  obtain ⟨last, h⟩ := Cursor.exists_lexes hplain
  obtain ⟨final, h'⟩ := Cursor.exists_lexes hlaidOut
  exact ⟨⟨_, _, last, final, h, h', hwords, parse_of_words h h' hwords⟩, by decide +kernel⟩

end Schematic.Netlist
