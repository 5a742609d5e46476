import Mathlib.Data.List.Induction
import Schematic.Proofs.Words

namespace Schematic

open Text

/-!
# Spellings and positions

Lexing loses nothing. A text without a fault is the spellings of its tokens with the gaps between
them, and each token has the position of its first character.

* `Position.behind` — a position as a count of lines and of characters;
* `IsGap`, `Unescapes`, `Token.SpelledAs` — what a gap and the spelling of a token are;
* `IsGap.splitGap_eq`, `Unescapes.readBody_eq` — what a gap and the body of a string are read as;
* `Cursor.Lexes` — reading token after token up to the end of the input;
* `Piece`, `Layout` — a text as gaps and spellings;
* `Cursor.exists_piece`, `Cursor.isGap_of_end` — what one step of reading does to the text;
* `layout_of_lexes` — what a whole text is read as is what it is laid out as.

The lexer and the description are developed apart. What a gap is and how a token is spelled are
defined without the lexer, by the characters alone; each of the two has a lemma that the lexer reads
just this much, and one that whatever it reads is of this kind. A text is then cut up by induction
on its tokens, with the front that has been read as a parameter: positions count from the beginning
of the whole text, so that the invariant is that the cursor stands behind the front.
-/

/-! ### Positions -/

namespace Text.Position

/-- The place behind the front of a text: one line further for each newline in it, and one column
    further for each character in its last line. -/
def behind (front : List Char) : Position :=
  ⟨1 + front.count '\n', 1 + (front.reverse.takeWhile (· ≠ '\n')).length⟩

/-- Counting character by character comes to the same. -/
theorem after_start (front : List Char) : start.after front = behind front := by
  -- Both go on at the end of the front, so that the induction takes characters from there.
  induction front using List.reverseRecOn with
  | nil => rfl
  | append_singleton front c ih =>
    rw [after_append, ih, after_cons, after_nil, advance]
    by_cases h : c = '\n'
    · simp [behind, h, Nat.add_assoc]
    · simp [behind, h, Nat.add_assoc]

/-- The place behind a front and a text is the place behind both together. -/
theorem after_behind (front text : List Char) :
    (behind front).after text = behind (front ++ text) := by
  rw [← after_start, ← after_append, after_start]

end Text.Position

namespace Netlist

/-! ### Gaps -/

/-- The characters are a gap in front of the given rest: blanks and perhaps a comment behind them,
    which goes on up to the end of its line or of the input. -/
inductive IsGap (rest : List Char) : List Char → Prop
  | nil : IsGap rest []
  | blank {c : Char} {gap : List Char} (hc : c = ' ' ∨ c = '\t' ∨ c = '\r') (h : IsGap rest gap) :
      IsGap rest (c :: gap)
  | comment {mark : Char} {body : List Char} (hmark : mark = '#' ∨ mark = ';') (hbody : '\n' ∉ body)
      (hend : ∀ c ∈ rest.head?, c = '\n') : IsGap rest (mark :: body)

/-- A comment has no newline in it, and it goes on up to one or to the end of the input. -/
theorem splitGap_comment (text : List Char) :
    '\n' ∉ (splitGap .comment text).1 ∧ ∀ c ∈ (splitGap .comment text).2.head?, c = '\n' := by
  induction text with
  | nil => simp [splitGap]
  | cons c text ih =>
    by_cases h : c = '\n'
    · simp [splitGap, GapState.step?, h]
    · simpa [splitGap, GapState.step?, h, Ne.symm h] using ih

/-- What is skipped in front of a token is a gap: blanks, and comments that go on up to the end of
    the line. -/
theorem isGap_splitGap (text : List Char) :
    IsGap (splitGap .blank text).2 (splitGap .blank text).1 := by
  induction text with
  | nil => exact .nil
  | cons c text ih =>
    -- A blank goes on with the gap, a mark begins a comment, and anything else ends the gap.
    by_cases hblank : c = ' ' ∨ c = '\t' ∨ c = '\r'
    · have step : GapState.blank.step? c = some .blank := if_pos hblank
      simp only [splitGap, step]
      exact .blank hblank ih
    · by_cases hmark : c = '#' ∨ c = ';'
      · have step : GapState.blank.step? c = some .comment := by
          rw [GapState.step?, if_neg hblank, if_pos hmark]
        obtain ⟨hbody, hend⟩ := splitGap_comment text
        simp only [splitGap, step]
        exact .comment hmark hbody hend
      · have step : GapState.blank.step? c = none := by
          rw [GapState.step?, if_neg hblank, if_neg hmark]
        simp only [splitGap, step]
        exact .nil

/-- A comment is skipped as a whole, whatever is written in it. -/
theorem splitGap_comment_append {body rest : List Char} (hbody : '\n' ∉ body)
    (hend : ∀ c ∈ rest.head?, c = '\n') : splitGap .comment (body ++ rest) = (body, rest) := by
  induction body with
  | nil =>
    cases rest with
    | nil => rfl
    | cons c rest =>
      obtain rfl := hend c rfl
      rfl
  | cons c body ih =>
    rw [List.mem_cons, not_or] at hbody
    have step : GapState.comment.step? c = some .comment := if_neg (Ne.symm hbody.1)
    simp only [List.cons_append, splitGap, step, ih hbody.2]

/-- A gap is skipped up to what begins a token. -/
theorem IsGap.splitGap_eq {rest gap : List Char} (h : IsGap rest gap)
    (hrest : ∀ c ∈ rest.head?, GapState.blank.step? c = none) :
    splitGap .blank (gap ++ rest) = (gap, rest) := by
  induction h with
  | nil =>
    cases rest with
    | nil => rfl
    | cons c rest =>
      have step := hrest c rfl
      simp only [List.nil_append, splitGap, step]
  | @blank c gap hc _ ih =>
    have step : GapState.blank.step? c = some .blank := if_pos hc
    simp only [List.cons_append, splitGap, step, ih]
  | @comment mark body hmark hbody hend =>
    have step : GapState.blank.step? mark = some .comment := by
      rcases hmark with rfl | rfl <;> rfl
    simp only [List.cons_append, splitGap, step, splitGap_comment_append hbody hend]

/-! ### Spellings -/

/-- The first text becomes the second one when each backslash in it gives its meaning to the
    character behind it. -/
inductive Unescapes : List Char → List Char → Prop
  | nil : Unescapes [] []
  | plain {c : Char} {body text : List Char} (hc : c ≠ '"' ∧ c ≠ '\\') (h : Unescapes body text) :
      Unescapes (c :: body) (c :: text)
  | escaped {c meant : Char} {body text : List Char}
      (hc : (c, meant) ∈ [('n', '\n'), ('t', '\t'), ('"', '"'), ('\\', '\\')])
      (h : Unescapes body text) : Unescapes ('\\' :: c :: body) (meant :: text)

/-- How a token can be spelled: a string in quotes on one line and with escapes, anything else as
    its text. The end of the input is not spelled at all. -/
def Token.SpelledAs (token : Token) (spelling : List Char) : Prop :=
  match token.kind with
  | .string => ∃ body, spelling = '"' :: body ++ ['"'] ∧ '\n' ∉ body ∧
      Unescapes body token.text.toList
  | .endOfInput => False
  | .identifier | .number | .directive | .newline => spelling = token.text.toList

/-- A character that has a meaning behind a backslash is one of the four. -/
theorem mem_escapes {c meant : Char} (h : unescape? c = some meant) :
    (c, meant) ∈ [('n', '\n'), ('t', '\t'), ('"', '"'), ('\\', '\\')] := by
  grind [unescape?]

/-- Each of the four characters has its meaning behind a backslash. -/
theorem unescape?_of_mem {c meant : Char}
    (h : (c, meant) ∈ [('n', '\n'), ('t', '\t'), ('"', '"'), ('\\', '\\')]) :
    unescape? c = some meant := by
  simp only [List.mem_cons, Prod.mk.injEq, List.not_mem_nil, or_false] at h
  rcases h with ⟨rfl, rfl⟩ | ⟨rfl, rfl⟩ | ⟨rfl, rfl⟩ | ⟨rfl, rfl⟩ <;> rfl

/-- The body of a string is read up to the closing quote, whatever stands behind it. -/
theorem Unescapes.readBody_eq {body word : List Char} (h : Unescapes body word)
    (hline : '\n' ∉ body) (rest : List Char) :
    readBody (body ++ '"' :: rest) = ⟨.ok word, body ++ ['"'], rest⟩ := by
  induction h with
  | nil => simp
  | plain hc _ ih =>
    rw [List.mem_cons, not_or] at hline
    rw [List.cons_append, readBody_plain ⟨hc.1, Ne.symm hline.1, hc.2⟩, ih hline.2]
    rfl
  | escaped hc _ ih =>
    simp only [List.mem_cons, not_or] at hline
    rw [List.cons_append, List.cons_append, readBody_escape (unescape?_of_mem hc), ih hline.2.2]
    rfl

/-- What is read of a string is the body in front of the closing quote, unescaped. -/
theorem unescapes_readBody {text body : List Char} (read : (readBody text).reading = .ok body) :
    ∃ inner, (readBody text).spelling = inner ++ ['"'] ∧ Unescapes inner body := by
  -- By recursion as the body is read. Only a closed string gives a body, so that the other ends do
  -- not count.
  fun_induction readBody text generalizing body with
  | case1 => simp at read
  | case2 text =>
    obtain rfl : [] = body := Except.ok.inj read
    exact ⟨[], rfl, .nil⟩
  | case3 text => simp at read
  | case4 => simp at read
  | case5 c text meant escape _ _ ih =>
    obtain ⟨part, hpart, rfl⟩ := reading_extend read
    obtain ⟨inner, hspelling, hinner⟩ := ih hpart
    exact ⟨'\\' :: c :: inner, by simp [Lexeme.extend, hspelling],
      .escaped (mem_escapes escape) hinner⟩
  | case6 c text escape => simp at read
  | case7 c text quote newline backslash ih =>
    obtain ⟨part, hpart, rfl⟩ := reading_extend read
    obtain ⟨inner, hspelling, hinner⟩ := ih hpart
    exact ⟨c :: inner, by simp [Lexeme.extend, hspelling], .plain ⟨quote, backslash⟩ hinner⟩

/-- What is read as a token is a spelling of it. -/
theorem spelledAs_readLexeme {text : List Char} {token : Token}
    (read : (readLexeme text).reading = .ok (token.kind, token.text))
    (more : token.kind ≠ .endOfInput) : token.SpelledAs (readLexeme text).spelling := by
  obtain ⟨kind, word, position⟩ := token
  revert read
  fun_cases readLexeme text with
  | case1 =>
    intro read
    obtain ⟨rfl, -⟩ := Prod.mk.inj (Except.ok.inj read)
    exact absurd rfl more
  | case2 text =>
    intro read
    obtain ⟨rfl, rfl⟩ := Prod.mk.inj (Except.ok.inj read)
    show ['\n'] = "\n".toList
    decide
  | case3 text =>
    intro read
    simp only [readDirective] at read ⊢
    split at read
    · simp at read
    · obtain ⟨rfl, rfl⟩ := Prod.mk.inj (Except.ok.inj read)
      exact String.toList_ofList.symm
  | case4 text =>
    intro read
    obtain ⟨body, hbody, hword⟩ := reading_extend read
    obtain ⟨rfl, rfl⟩ := Prod.mk.inj hword
    obtain ⟨inner, hspelling, hinner⟩ := unescapes_readBody hbody
    -- There is no newline up to the closing quote, and so there is none in front of it.
    have hline := newline_not_mem_readBody hbody
    rw [hspelling, List.mem_append, not_or] at hline
    refine ⟨inner, by rw [Lexeme.extend, hspelling]; rfl, hline.1, ?_⟩
    rwa [String.toList_ofList]
  | case5 c text =>
    intro read
    simp only [readSigned] at read ⊢
    split at read
    · simp at read
    · obtain ⟨rfl, rfl⟩ := Prod.mk.inj (Except.ok.inj read)
      exact String.toList_ofList.symm
  | case6 | case7 =>
    intro read
    obtain ⟨rfl, rfl⟩ := Prod.mk.inj (Except.ok.inj read)
    exact String.toList_ofList.symm
  | case8 => exact fun read => absurd read (by simp)

/-! ### Reading a whole text -/

namespace Cursor

/-- The cursor gives the tokens one after the other, and then the last one, which stands for the end
    of the input. -/
inductive Lexes : Cursor → List Token → Token → Prop
  | finish {cursor stop : Cursor} {last : Token} (read : cursor.next = (.ok last, stop))
      (ended : last.kind = .endOfInput) : Lexes cursor [] last
  | step {cursor stop : Cursor} {token last : Token} {tokens : List Token}
      (read : cursor.next = (.ok token, stop)) (more : token.kind ≠ .endOfInput)
      (h : Lexes stop tokens last) : Lexes cursor (token :: tokens) last

variable {cursor stop : Cursor} {token last : Token} {tokens : List Token}

/-- A cursor that gives some tokens up to the end of the input has these tokens and no fault. -/
theorem Lexes.tokens_eq (h : cursor.Lexes tokens last) : cursor.tokens = ⟨tokens, none⟩ := by
  induction h with
  | finish read ended =>
    rw [Cursor.tokens_eq, read]
    exact if_pos ended
  | step read more _ ih =>
    rw [Cursor.tokens_eq, read]
    simp only [more, if_false, ih]

/-- Where there is no fault, the end of the input is reached. -/
theorem exists_lexes (h : cursor.tokens.fault = none) :
    ∃ last, cursor.Lexes cursor.tokens.tokens last := by
  fun_induction Cursor.tokens cursor with
  | case1 cursor fault stop read => simp at h
  | case2 cursor token stop read ended => exact ⟨token, .finish read ended⟩
  | case3 cursor token stop read more _ following ih =>
    obtain ⟨last, hlast⟩ := ih h
    exact ⟨last, .step read more hlast⟩

end Cursor

/-- A token with its spelling and the gap in front of it. -/
structure Piece where
  gap : List Char
  spelling : List Char
  token : Token

/-- The characters of a piece. -/
def Piece.text (piece : Piece) : List Char := piece.gap ++ piece.spelling

/-- The piece is in its place between what has been read and the rest. -/
structure Piece.Fits (piece : Piece) (read rest : List Char) : Prop where
  gap : IsGap (piece.spelling ++ rest) piece.gap
  spelling : piece.token.SpelledAs piece.spelling
  position : piece.token.position = .behind (read ++ piece.gap)

/-- A text consists of pieces and of a gap behind them, where `read` stands in front of the text. -/
structure Layout (read text : List Char) (pieces : List Piece) (gap : List Char) : Prop where
  text_eq : text = pieces.flatMap Piece.text ++ gap
  fits : ∀ front piece back, pieces = front ++ piece :: back →
    piece.Fits (read ++ front.flatMap Piece.text) (back.flatMap Piece.text ++ gap)
  gap : IsGap [] gap

namespace Layout

variable {read text gap : List Char} {piece : Piece} {pieces : List Piece}

/-- A gap alone is a text without pieces. -/
theorem nil (h : IsGap [] gap) : Layout read gap [] gap where
  text_eq := rfl
  fits front piece back h := absurd h (by simp)
  gap := h

/-- A piece in front of a text that is laid out. -/
theorem cons (hfits : piece.Fits read text) (h : Layout (read ++ piece.text) text pieces gap) :
    Layout read (piece.text ++ text) (piece :: pieces) gap where
  text_eq := by rw [List.flatMap_cons, List.append_assoc, ← h.text_eq]
  fits front other back hsplit := by
    -- The piece in question is the new one, or it stands further behind.
    cases front with
    | nil =>
      obtain ⟨rfl, rfl⟩ := List.cons.inj hsplit
      rw [List.flatMap_nil, List.append_nil, ← h.text_eq]
      exact hfits
    | cons first front =>
      obtain ⟨rfl, hback⟩ := List.cons.inj hsplit
      rw [List.flatMap_cons, ← List.append_assoc]
      exact h.fits front other back hback
  gap := h.gap

end Layout

namespace Cursor

variable {cursor stop : Cursor} {token last : Token} {tokens : List Token} {front : List Char}

/-- The cursor moves over a gap. -/
theorem exists_gap (hp : cursor.position = .behind front) :
    ∃ gap, cursor.rest = gap ++ cursor.skipGap.rest ∧ IsGap cursor.skipGap.rest gap ∧
      cursor.skipGap.position = .behind (front ++ gap) := by
  refine ⟨(splitGap .blank cursor.rest).1, (splitGap_append ..).symm, isGap_splitGap _, ?_⟩
  rw [skipGap, hp, Position.after_behind]

/-- A token that is read is a piece between what stands in front of the cursor and what stands
    behind the token. -/
theorem exists_piece (read : cursor.next = (.ok token, stop)) (more : token.kind ≠ .endOfInput)
    (hp : cursor.position = .behind front) :
    ∃ piece : Piece, piece.token = token ∧ piece.Fits front stop.rest ∧
      cursor.rest = piece.text ++ stop.rest ∧ stop.position = .behind (front ++ piece.text) := by
  obtain ⟨_, rfl, reading, position, rfl⟩ := lexeme_of_next read
  obtain ⟨gap, hrest, hgap, hstart⟩ := exists_gap hp
  have hlexeme := readLexeme_append cursor.skipGap.rest
  refine ⟨⟨gap, (readLexeme cursor.skipGap.rest).spelling, token⟩, rfl, ?fits, ?rest, ?position⟩
  case fits =>
    exact ⟨by rwa [hlexeme], spelledAs_readLexeme reading more, by rw [position, hstart]⟩
  case rest => rw [Piece.text, List.append_assoc, hlexeme, ← hrest]
  case position =>
    show cursor.skipGap.position.after _ = _
    rw [hstart, Position.after_behind, Piece.text, List.append_assoc]

/-- In front of the end of the input there is nothing but a gap. -/
theorem isGap_of_end (read : cursor.next = (.ok last, stop)) (ended : last.kind = .endOfInput)
    (hp : cursor.position = .behind front) :
    IsGap [] cursor.rest ∧ last.position = .behind (front ++ cursor.rest) := by
  obtain ⟨_, rfl, reading, position, -⟩ := lexeme_of_next read
  obtain ⟨gap, hrest, hgap, hstart⟩ := exists_gap hp
  rw [ended] at reading
  have hempty : cursor.skipGap.rest = [] := eq_nil_of_endOfInput reading
  rw [hempty, List.append_nil] at hrest
  rw [hempty, ← hrest] at hgap
  exact ⟨hgap, by rw [position, hstart, hrest]⟩

/-- What a cursor gives is what the text behind it is laid out as. -/
theorem Lexes.exists_layout (h : cursor.Lexes tokens last) (hp : cursor.position = .behind front) :
    ∃ pieces gap, Layout front cursor.rest pieces gap ∧ pieces.map (·.token) = tokens ∧
      last.position = .behind (front ++ cursor.rest) := by
  -- The front grows by a piece with each step, and the cursor stays behind it.
  induction h generalizing front with
  | finish read ended =>
    obtain ⟨hgap, hlast⟩ := isGap_of_end read ended hp
    exact ⟨[], _, .nil hgap, rfl, hlast⟩
  | step read more _ ih =>
    obtain ⟨piece, rfl, hfits, hrest, hstop⟩ := exists_piece read more hp
    obtain ⟨pieces, gap, hlayout, rfl, hlast⟩ := ih hstop
    rw [hrest]
    refine ⟨piece :: pieces, gap, .cons hfits hlayout, rfl, ?_⟩
    rw [hlast, List.append_assoc]

end Cursor

/-- A text that is read up to its end without a fault consists of the spellings of its tokens, with
    a gap in front of each and one at the end. Each token has the position of the first character
    of its spelling, and the end of the input has the position behind the last character. -/
theorem layout_of_lexes {text : String} {tokens : List Token} {last : Token}
    (h : (Cursor.ofText text).Lexes tokens last) :
    ∃ pieces gap, Layout [] text.toList pieces gap ∧ pieces.map (·.token) = tokens ∧
      last.position = .behind text.toList :=
  h.exists_layout rfl

/-- A letter outside ASCII, a comment with quotes in it, a string with escapes and a comment that
    ends with the input. -/
theorem layout_of_commented_lines :
    let text := ".d é1 # \"c\"\n  \"q\\\"\\n\" -1;"
    let tokens : List Token :=
      [⟨.directive, ".d", ⟨1, 1⟩⟩, ⟨.identifier, "é1", ⟨1, 4⟩⟩, ⟨.newline, "\n", ⟨1, 12⟩⟩,
        ⟨.string, "q\"\n", ⟨2, 3⟩⟩, ⟨.number, "-1", ⟨2, 11⟩⟩]
    ∃ last pieces gap, (Cursor.ofText text).Lexes tokens last ∧
      Layout [] text.toList pieces gap ∧ pieces.map (·.token) = tokens ∧
      last.position = ⟨2, 14⟩ := by
  intro text tokens
  have hread : (Cursor.ofText text).tokens = ⟨tokens, none⟩ := by decide +kernel
  have hfault : (Cursor.ofText text).tokens.fault = none := by rw [hread]
  obtain ⟨last, h⟩ := Cursor.exists_lexes hfault
  rw [hread] at h
  obtain ⟨pieces, gap, hlayout, htokens, hlast⟩ := layout_of_lexes h
  have hend : Position.behind text.toList = ⟨2, 14⟩ := by decide
  exact ⟨last, pieces, gap, h, hlayout, htokens, hlast.trans hend⟩

end Netlist

end Schematic
