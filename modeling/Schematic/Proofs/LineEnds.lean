import Schematic.Proofs.Shifting

namespace Schematic.Netlist

open Text

/-!
# Ends of lines

A newline ends whatever stands in front of it: the tokens of a text are the same when the text goes
on behind a newline, and a fault stays a fault.

* `Lexeme.Unaffected`, `readLexeme_unaffected` — a lexeme with a newline somewhere behind it;
* `Cursor.next_of_lexeme`, `Cursor.lexeme_of_next` — the next token from the lexeme behind the gap;
* `Cursor.tokens_of_line`, `Cursor.tokens_of_faulty_line` — the tokens of a text and of what follows
  behind a newline.

No token reaches over a newline: a run of name characters or digits stops there, a comment ends
there, and a string that is open there is a fault. So each lexeme is read from its own line, and the
proof goes by cases on what the first character begins. The one thing that a newline can change is
which fault it is, since a backslash at the end of a text is followed by nothing and one at the end
of a line by the newline; this is why faults are only said to stay faults. From one token the
statements pass to all tokens by induction on the reading, up to the end of the input, which becomes
the end of a line.
-/

/-! ### Lexemes with a newline behind them -/

section Lexemes

variable {α β : Type}

/-- What is read in front of `more` as well as alone. -/
def Lexeme.before (more : List Char) (lexeme : Lexeme α) : Lexeme α :=
  { lexeme with rest := lexeme.rest ++ more }

/-- What is read alone is read in the same way when it is followed by `more`, and what cannot be
    read alone cannot be read then. The fault can be another one: a backslash at the end of a text
    leaves the string open, and in front of a newline it is no escape. -/
structure Lexeme.Unaffected (more : List Char) (alone followed : Lexeme α) : Prop where
  ok : ∀ value, alone.reading = .ok value → followed = alone.before more
  error : ∀ fault, alone.reading = .error fault → ∃ other, followed.reading = .error other

/-- What is read with the same outcome in front of `more` is unaffected. -/
theorem Lexeme.Unaffected.of_eq {more : List Char} {alone followed : Lexeme α}
    (h : followed = alone.before more) : Lexeme.Unaffected more alone followed where
  ok _ _ := h
  error fault read := ⟨fault, by rw [h]; exact read⟩

/-- What is a fault with and without `more` is unaffected, even if the two faults differ. -/
theorem Lexeme.Unaffected.of_error {more : List Char} {alone followed : Lexeme α}
    (fault other : LexicalFault) (h : alone.reading = .error fault)
    (h' : followed.reading = .error other) : Lexeme.Unaffected more alone followed where
  ok value read := by simp [h] at read
  error _ _ := ⟨other, h'⟩

/-- Characters that are read in front of a lexeme do not matter to whether `more` affects it. -/
theorem Lexeme.Unaffected.extend {more : List Char} {alone followed : Lexeme α}
    (h : Lexeme.Unaffected more alone followed) (front : List Char) (f : α → β) :
    Lexeme.Unaffected more (alone.extend front f) (followed.extend front f) := by
  cases read : alone.reading with
  | ok value =>
    rw [h.ok value read]
    exact .of_eq rfl
  | error fault =>
    obtain ⟨other, h'⟩ := h.error fault read
    exact .of_error fault other (by rw [Lexeme.extend, read]; rfl)
      (by rw [Lexeme.extend, h']; rfl)

end Lexemes

variable {more : List Char}

/-- A run of characters ends in front of the first one that does not continue it. -/
theorem takeWhile_append_cons {p : Char → Bool} {c : Char} (h : p c = false)
    (text more : List Char) :
    (text ++ c :: more).takeWhile p = text.takeWhile p ∧
      (text ++ c :: more).dropWhile p = text.dropWhile p ++ c :: more := by
  induction text with
  | nil => simp [h]
  | cons d text ih =>
    cases hd : p d with
    | true => simpa [hd] using ih
    | false => simp [hd]

/-- A gap ends with its line. A newline ends a comment and belongs to no gap, so that more lines do
    not make the gap longer. -/
theorem splitGap_append_newline (state : GapState) (text : List Char) :
    splitGap state (text ++ '\n' :: more) =
      ((splitGap state text).1, (splitGap state text).2 ++ '\n' :: more) := by
  fun_induction splitGap state text with
  | case1 state => cases state <;> rfl
  | case2 state c cs next step ih => simp [splitGap, step, ih]
  | case3 state c cs step => simp [splitGap, step]

/-! ### Strings, character by character -/

/-- A quote closes a string. -/
@[simp] theorem readBody_quote (text : List Char) :
    readBody ('"' :: text) = ⟨.ok [], ['"'], text⟩ := by
  rw [readBody.eq_def]
  rfl

/-- A string that is open at the end of its line is not closed. -/
@[simp] theorem readBody_newline (text : List Char) :
    readBody ('\n' :: text) = ⟨.error .unterminatedString, [], '\n' :: text⟩ := by
  rw [readBody.eq_def]
  rfl

/-- A backslash in front of a character that has a meaning there stands for this meaning. -/
theorem readBody_escape {c meant : Char} (h : unescape? c = some meant) (text : List Char) :
    readBody ('\\' :: c :: text) = (readBody text).extend ['\\', c] (meant :: ·) := by
  rw [readBody.eq_def]
  simp [h]

/-- A backslash in front of any other character is a fault, and the reading ends behind this
    character. -/
theorem readBody_unknown {c : Char} (h : unescape? c = none) (text : List Char) :
    readBody ('\\' :: c :: text) = ⟨.error (.unknownEscape c), ['\\', c], text⟩ := by
  rw [readBody.eq_def]
  simp [h]

/-- Any other character stands for itself. -/
theorem readBody_plain {c : Char} (h : c ≠ '"' ∧ c ≠ '\n' ∧ c ≠ '\\') (text : List Char) :
    readBody (c :: text) = (readBody text).extend [c] (c :: ·) := by
  rw [readBody.eq_def]
  simp [h]

/-- A string is closed on its line, or it is refused whether the text goes on behind the line or
    not. The error may be another one then, where the line ends with a backslash. -/
theorem readBody_unaffected (text : List Char) :
    Lexeme.Unaffected ('\n' :: more) (readBody text) (readBody (text ++ '\n' :: more)) := by
  fun_induction readBody text with
  | case1 =>
    refine .of_error .unterminatedString .unterminatedString rfl ?_
    rw [List.nil_append, readBody_newline]
  | case2 text => exact .of_eq (by simp [Lexeme.before])
  | case3 text => exact .of_eq (by simp [Lexeme.before])
  | case4 =>
    -- A backslash that ends the text escapes the newline, which is no escape either.
    refine .of_error .unterminatedString (.unknownEscape '\n') rfl ?_
    rw [List.cons_append, List.nil_append, readBody_unknown rfl]
  | case5 c text meant escape _ _ ih =>
    rw [List.cons_append, List.cons_append, readBody_escape escape]
    exact ih.extend ..
  | case6 c text escape _ _ =>
    rw [List.cons_append, List.cons_append, readBody_unknown escape]
    exact .of_eq rfl
  | case7 c text quote newline backslash ih =>
    rw [List.cons_append, readBody_plain ⟨quote, newline, backslash⟩]
    exact ih.extend ..

/-- No token reaches behind the end of its line. A newline continues no token, and so whatever is
    read in a text is read in the same way if a newline and more text come behind it. -/
theorem readLexeme_unaffected {text : List Char} (h : text ≠ []) (more : List Char) :
    Lexeme.Unaffected ('\n' :: more) (readLexeme text) (readLexeme (text ++ '\n' :: more)) := by
  have newlineEndsName : isNameChar '\n' = false := by decide +kernel
  have newlineEndsNumber : '\n'.isDigit = false := rfl
  -- By what the first character begins. A newline continues neither names nor numbers.
  fun_cases readLexeme text with
  | case1 => exact absurd rfl h
  | case2 text => exact .of_eq rfl
  | case3 text _ =>
    obtain ⟨taken, dropped⟩ := takeWhile_append_cons newlineEndsName text more
    exact .of_eq (by simp [readLexeme, readDirective, Lexeme.before, taken, dropped])
  | case4 text =>
    exact (readBody_unaffected text).extend ..
  | case5 c text newline dot quote sign =>
    obtain ⟨taken, dropped⟩ := takeWhile_append_cons newlineEndsNumber text more
    exact .of_eq (by
      simp [readLexeme, newline, dot, quote, sign, readSigned, Lexeme.before, taken, dropped])
  | case6 c text newline dot quote sign start =>
    obtain ⟨taken, dropped⟩ := takeWhile_append_cons newlineEndsNumber (c :: text) more
    rw [List.cons_append] at taken dropped
    exact .of_eq (by
      simp [readLexeme, newline, dot, quote, sign, start, readRun, Lexeme.before, taken, dropped])
  | case7 c text newline dot quote sign number start =>
    obtain ⟨taken, dropped⟩ := takeWhile_append_cons newlineEndsName (c :: text) more
    rw [List.cons_append] at taken dropped
    exact .of_eq (by
      simp [readLexeme, newline, dot, quote, sign, number, start, readRun, Lexeme.before, taken,
        dropped])
  | case8 c text newline dot quote sign number start =>
    exact .of_eq (by simp [readLexeme, newline, dot, quote, sign, number, start, Lexeme.before])

/-- The end of the input is read only where nothing is left. -/
theorem eq_nil_of_endOfInput {text : List Char} {word : String}
    (read : (readLexeme text).reading = .ok (.endOfInput, word)) : text = [] := by
  revert read
  fun_cases readLexeme text <;>
    simp [readDirective, readSigned, readRun, Lexeme.extend, Except.map]
  all_goals split <;> simp

/-! ### Tokens -/

namespace Cursor

/-- The same place of a text that goes on with `more`. -/
def before (more : List Char) (cursor : Cursor) : Cursor :=
  { cursor with rest := cursor.rest ++ more }

/-- The place behind the end of the input. -/
def finish (cursor : Cursor) : Position := cursor.position.after cursor.rest

/-- To skip a gap does not lose any of the input: the end is where it was. -/
theorem finish_skipGap (cursor : Cursor) : cursor.skipGap.finish = cursor.finish := by
  rw [finish, skipGap, ← Position.after_append, splitGap_append, finish]

/-- Reading a token does not lose any of the input. -/
theorem finish_next {cursor stop : Cursor} {outcome : Except Error Token}
    (read : cursor.next = (outcome, stop)) : stop.finish = cursor.finish := by
  have stopped : cursor.next.2.finish = cursor.skipGap.finish := by
    rw [finish, finish, next]
    split <;> rw [← Position.after_append, readLexeme_append]
  rw [← finish_skipGap cursor, ← stopped, read]

/-- A gap that is skipped in a line is skipped in the same way when there are further lines. -/
theorem skipGap_before (cursor : Cursor) :
    (cursor.before ('\n' :: more)).skipGap = cursor.skipGap.before ('\n' :: more) := by
  simp only [skipGap, before, splitGap_append_newline]

/-- A token that is read, from the lexeme behind the gap. The token begins where the gap ends, and
    the cursor moves behind the spelling. -/
theorem next_of_lexeme {cursor : Cursor} {lexeme : Lexeme (TokenKind × String)} {kind : TokenKind}
    {text : String} (h : readLexeme cursor.skipGap.rest = lexeme)
    (read : lexeme.reading = .ok (kind, text)) :
    cursor.next = (.ok ⟨kind, text, cursor.skipGap.position⟩,
      ⟨lexeme.rest, cursor.skipGap.position.after lexeme.spelling⟩) := by
  subst h
  simp [next, read]

/-- What a cursor has read is the lexeme behind the gap: its kind and text, the position where it
    begins, and the cursor behind its spelling. -/
theorem lexeme_of_next {cursor stop : Cursor} {token : Token}
    (read : cursor.next = (.ok token, stop)) :
    ∃ lexeme, readLexeme cursor.skipGap.rest = lexeme ∧
      lexeme.reading = .ok (token.kind, token.text) ∧ token.position = cursor.skipGap.position ∧
      stop = ⟨lexeme.rest, cursor.skipGap.position.after lexeme.spelling⟩ := by
  refine ⟨_, rfl, ?_⟩
  simp only [next] at read
  split at read
  · next kind text reading =>
    simp only [Prod.mk.injEq, Except.ok.injEq] at read
    obtain ⟨rfl, rfl⟩ := read
    exact ⟨reading, rfl, rfl⟩
  · simp at read

/-- What a cursor reads in a line is read in the same way when there are further lines. The end of
    the input is left out, which is the only token that more text takes away. -/
theorem next_of_line {cursor stop : Cursor} {token : Token} (read : cursor.next = (.ok token, stop))
    (inside : token.kind ≠ .endOfInput) :
    (cursor.before ('\n' :: more)).next = (.ok token, stop.before ('\n' :: more)) := by
  obtain ⟨lexeme, h, reading, position, rfl⟩ := lexeme_of_next read
  -- With nothing behind the gap, the newline would be read in place of the end of the input.
  have nonempty : cursor.skipGap.rest ≠ [] := by
    intro empty
    rw [empty] at h
    subst h
    simp only [readLexeme, Except.ok.injEq, Prod.mk.injEq] at reading
    exact inside reading.1.symm
  have followed : readLexeme (cursor.before ('\n' :: more)).skipGap.rest =
      lexeme.before ('\n' :: more) := by
    rw [skipGap_before, ← h]
    exact (readLexeme_unaffected nonempty more).ok _ (by rw [h, reading])
  rw [next_of_lexeme followed reading, skipGap_before]
  simp only [before, Lexeme.before, ← position]

/-- The end of the input becomes the end of a line when there are further lines, in the place where
    the input used to end. -/
theorem next_of_end {cursor stop : Cursor} {token : Token} (read : cursor.next = (.ok token, stop))
    (ended : token.kind = .endOfInput) :
    (cursor.before ('\n' :: more)).next =
      (.ok ⟨.newline, "\n", cursor.finish⟩, ⟨more, cursor.finish.advance '\n'⟩) := by
  obtain ⟨lexeme, h, reading, position, rfl⟩ := lexeme_of_next read
  rw [← h, ended] at reading
  have empty : cursor.skipGap.rest = [] := eq_nil_of_endOfInput reading
  have here : cursor.skipGap.position = cursor.finish := by
    rw [← finish_skipGap, finish, empty, Position.after_nil]
  have followed : readLexeme (cursor.before ('\n' :: more)).skipGap.rest =
      ⟨.ok (.newline, "\n"), ['\n'], more⟩ := by
    rw [skipGap_before, before, empty]
    rfl
  rw [next_of_lexeme followed rfl, skipGap_before]
  simp only [before, here, Position.after_cons, Position.after_nil]

/-- What is wrong with a line stays wrong when there are further lines, although the error may
    change. -/
theorem next_of_fault {cursor stop : Cursor} {error : Error}
    (read : cursor.next = (.error error, stop)) (more : List Char) :
    ∃ other behind, (cursor.before ('\n' :: more)).next = (.error other, behind) := by
  simp only [next] at read
  split at read
  · simp at read
  · next fault reading =>
    -- At the end of the input there is a token and no fault, so that something is left.
    have nonempty : cursor.skipGap.rest ≠ [] := by
      intro empty
      rw [empty] at reading
      simp [readLexeme] at reading
    obtain ⟨other, followed⟩ := (readLexeme_unaffected nonempty more).error fault reading
    have reread :
        (readLexeme (cursor.before ('\n' :: more)).skipGap.rest).reading = .error other := by
      rw [skipGap_before]
      exact followed
    exact ⟨_, _, by rw [next, reread]⟩

/-- The tokens of a text without a fault, and of what follows behind a newline. The newline is a
    token of its own between them, and the second part is read from the next line on. -/
theorem tokens_of_line {cursor : Cursor} (h : cursor.tokens.fault = none) (more : List Char) :
    let following : Cursor := ⟨more, cursor.finish.advance '\n'⟩
    (cursor.before ('\n' :: more)).tokens =
      ⟨cursor.tokens.tokens ++ ⟨.newline, "\n", cursor.finish⟩ :: following.tokens.tokens,
        following.tokens.fault⟩ := by
  fun_induction tokens cursor with
  | case1 cursor fault stop read => simp at h
  | case2 cursor token stop read ended =>
    -- Only here the two readings part: the end of the input becomes the newline.
    rw [tokens_eq, next_of_end read ended]
    simp
  | case3 cursor token stop read inside _ following ih =>
    rw [tokens_eq, next_of_line read inside]
    simp only [inside, if_false, ih h, finish_next read, List.cons_append, following]

/-- A text with a fault has a fault behind the same tokens when it goes on behind a newline. -/
theorem tokens_of_faulty_line {cursor : Cursor} {error : Error}
    (h : cursor.tokens.fault = some error) (more : List Char) :
    ∃ other, (cursor.before ('\n' :: more)).tokens = ⟨cursor.tokens.tokens, some other⟩ := by
  fun_induction tokens cursor with
  | case1 cursor fault stop read =>
    obtain ⟨other, behind, followed⟩ := next_of_fault read more
    exact ⟨other, by rw [tokens_eq, followed]⟩
  | case2 cursor token stop read ended => simp at h
  | case3 cursor token stop read inside _ following ih =>
    obtain ⟨other, followed⟩ := ih h
    refine ⟨other, ?_⟩
    rw [tokens_eq, next_of_line read inside]
    simp only [inside, if_false, followed]
    rfl

end Cursor

end Schematic.Netlist
