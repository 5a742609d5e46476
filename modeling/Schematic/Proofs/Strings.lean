import Schematic.Proofs.Spelling

namespace Schematic.Netlist

open Text

/-!
# Strings

An opening quote begins a string exactly if a body and a closing quote stand behind it on its line.
There is one way to read it then, even where a run of backslashes stands in front of a quote.

* `Closing` — a text cut at the quote that closes a string, with what the body in front of it means;
* `exists_closing`, `Closing.readBody_eq` — what is read as the body of a string is cut in this way,
  and what can be cut in this way is read;
* `Closing.exists_of_text` — the escaped form of a text is a body that means this text;
* `strings_of_quote` — what a cursor in front of a quote reads.

That a string is closed is a statement about the text behind the opening quote: it can be cut at a
quote such that the front unescapes to something. The lexer does not search for such a cut, it reads
one character or escape at a time. Reading succeeds exactly if there is a cut, and gives it back
(`exists_closing`, `Closing.readBody_eq`). That there is no more than one cut follows from this
without an argument about backslashes: the reader is a function, and every cut is what it returns.
-/

/-! ### Closing quotes -/

/-- A text behind an opening quote, cut at the quote that closes the string. The body of the string
    stands on one line, and each character in it belongs to an escape or stands for itself. -/
structure Closing (inner : List Char) where
  /-- What stands between the quotes. -/
  body : List Char
  /-- The same with its escapes replaced. -/
  text : List Char
  /-- What stands behind the closing quote. -/
  rest : List Char
  inner_eq : inner = body ++ '"' :: rest
  inLine : '\n' ∉ body
  unescapes : Unescapes body text

/-- What is read as the body of a string ends at a closing quote. -/
theorem exists_closing {inner text : List Char} (read : (readBody inner).reading = .ok text) :
    ∃ closing : Closing inner, closing.text = text := by
  obtain ⟨body, hspelling, hbody⟩ := unescapes_readBody read
  have hwhole := readBody_append inner
  rw [hspelling, List.append_assoc] at hwhole
  have hline := newline_not_mem_readBody read
  rw [hspelling, List.mem_append, not_or] at hline
  exact ⟨⟨body, text, _, hwhole.symm, hline.1, hbody⟩, rfl⟩

namespace Closing

variable {inner : List Char}

/-- A body with a closing quote behind it is read up to this quote. -/
theorem readBody_eq (closing : Closing inner) :
    readBody inner = ⟨.ok closing.text, closing.body ++ ['"'], closing.rest⟩ := by
  have h := closing.unescapes.readBody_eq closing.inLine closing.rest
  rwa [← closing.inner_eq] at h

/-- A cut is determined by what reading makes of it. -/
theorem eq_of_readBody {closing : Closing inner} {body text rest : List Char}
    (read : readBody inner = ⟨.ok text, body ++ ['"'], rest⟩) :
    closing.body = body ∧ closing.text = text ∧ closing.rest = rest := by
  have h := closing.readBody_eq.symm.trans read
  rw [Lexeme.mk.injEq, Except.ok.injEq, List.append_cancel_right_eq] at h
  exact ⟨h.2.1, h.1, h.2.2⟩

/-- A text is cut at no more than one quote. -/
theorem unique (first second : Closing inner) : first = second := by
  -- Both are what is read there, so that no induction over two bodies is needed.
  obtain ⟨hbody, htext, hrest⟩ := first.eq_of_readBody second.readBody_eq
  cases first
  cases second
  subst hbody htext hrest
  rfl

/-- The escaped form of a text is the body of a string with this text, whatever stands behind the
    closing quote. -/
theorem exists_of_text (text rest : List Char) :
    ∃ closing : Closing (text.flatMap escape ++ '"' :: rest),
      closing.body = text.flatMap escape ∧ closing.text = text ∧ closing.rest = rest := by
  have read := readBody_flatMap_escape text rest
  obtain ⟨closing, -⟩ := exists_closing (congrArg Lexeme.reading read)
  exact ⟨closing, closing.eq_of_readBody read⟩

end Closing

/-! ### Opening quotes -/

namespace Cursor

variable {inner : List Char}

/-- A quote belongs to no gap. -/
theorem skipGap_quote (inner : List Char) (position : Position) :
    (⟨'"' :: inner, position⟩ : Cursor).skipGap = ⟨'"' :: inner, position⟩ := rfl

/-- What begins with a quote is a string. -/
theorem readLexeme_quote (inner : List Char) :
    readLexeme ('"' :: inner) =
      (readBody inner).extend ['"'] fun body => (.string, String.ofList body) := rfl

/-- Behind a quote that is closed, the string is the next token. -/
theorem next_of_closing (closing : Closing inner) (position : Position) :
    (⟨'"' :: inner, position⟩ : Cursor).next =
      (.ok ⟨.string, String.ofList closing.text, position⟩,
        ⟨closing.rest, position.after ('"' :: closing.body ++ ['"'])⟩) := by
  have lexeme : readLexeme (⟨'"' :: inner, position⟩ : Cursor).skipGap.rest =
      ⟨.ok (.string, String.ofList closing.text), '"' :: closing.body ++ ['"'], closing.rest⟩ := by
    rw [skipGap_quote, readLexeme_quote, closing.readBody_eq]
    rfl
  rw [next_of_lexeme lexeme rfl, skipGap_quote]

/-- A string is read only where its quote is closed. Whatever the token is said to be, a quote in
    front of the cursor begins a string. -/
theorem exists_closing_of_next {position : Position} {token : Token} {stop : Cursor}
    (read : (⟨'"' :: inner, position⟩ : Cursor).next = (.ok token, stop)) :
    Nonempty (Closing inner) := by
  obtain ⟨_, rfl, reading, -, -⟩ := lexeme_of_next read
  rw [skipGap_quote, readLexeme_quote] at reading
  obtain ⟨text, hbody, -⟩ := reading_extend reading
  obtain ⟨closing, -⟩ := exists_closing hbody
  exact ⟨closing⟩

end Cursor

/-- In front of a quote, a cursor reads a string exactly if the quote is closed: if a body without
    newlines stands behind it, of escapes and of characters other than quotes and backslashes, and
    then another quote. The text of the string is the body with its escapes replaced, all up to the
    closing quote is used up, and there is no other way to take a body from what stands there. So
    every text can be written as a string, whatever stands behind it. -/
theorem strings_of_quote (inner : List Char) (position : Position) :
    let cursor : Cursor := ⟨'"' :: inner, position⟩
    ((∃ token stop, cursor.next = (.ok token, stop) ∧ token.kind = .string) ↔
      Nonempty (Closing inner)) ∧
    (∀ closing : Closing inner,
      cursor.next =
        (.ok ⟨.string, String.ofList closing.text, position⟩,
          ⟨closing.rest, position.after ('"' :: closing.body ++ ['"'])⟩) ∧
      ∀ other : Closing inner, other = closing) ∧
    ∀ (text : String) (rest : List Char),
      (⟨(writeString text).toList ++ rest, position⟩ : Cursor).next =
        (.ok ⟨.string, text, position⟩, ⟨rest, position.after (writeString text).toList⟩) := by
  refine ⟨⟨?string, ?closed⟩, fun closing => ⟨?next, ?unique⟩, fun text rest => ?written⟩
  case string =>
    rintro ⟨token, stop, read, -⟩
    exact Cursor.exists_closing_of_next read
  case closed =>
    rintro ⟨closing⟩
    exact ⟨_, _, Cursor.next_of_closing closing position, rfl⟩
  case next => exact Cursor.next_of_closing closing position
  case unique => exact fun other => other.unique closing
  -- What is written for a text has its escaped form between two quotes, which is a cut with nothing
  -- left.
  case written =>
    obtain ⟨closing, hbody, htext, hrest⟩ := Closing.exists_of_text text.toList rest
    have hnext := Cursor.next_of_closing closing position
    rw [hbody, htext, hrest, String.ofList_toList] at hnext
    have hwritten : (writeString text).toList = '"' :: text.toList.flatMap escape ++ ['"'] :=
      String.toList_ofList
    rw [hwritten]
    simpa using hnext

/-- Of three backslashes in front of a quote, the first two are one escape and the third one is
    another one with the quote, so that the string goes on. -/
theorem strings_of_three_backslashes :
    let cursor : Cursor := ⟨"\"\\\\\\\"a\"b\"".toList, ⟨2, 5⟩⟩
    ∃ closing : Closing "\\\\\\\"a\"b\"".toList, closing.body = "\\\\\\\"a".toList ∧
      cursor.next = (.ok ⟨.string, "\\\"a", ⟨2, 5⟩⟩, ⟨"b\"".toList, ⟨2, 12⟩⟩) ∧
      ∀ other : Closing "\\\\\\\"a\"b\"".toList, other = closing := by
  intro cursor
  let closing : Closing "\\\\\\\"a\"b\"".toList :=
    { body := "\\\\\\\"a".toList
      text := "\\\"a".toList
      rest := "b\"".toList
      inner_eq := rfl
      inLine := by decide
      unescapes := .escaped (by decide) (.escaped (by decide) (.plain (by decide) .nil)) }
  obtain ⟨hnext, hunique⟩ := (strings_of_quote "\\\\\\\"a\"b\"".toList ⟨2, 5⟩).2.1 closing
  exact ⟨closing, rfl, hnext, hunique⟩

end Schematic.Netlist
