import Schematic.Proofs.Grammar
import Schematic.Proofs.Relayout
import Schematic.Proofs.Sequences

namespace Schematic

open Netlist Text

/-!
# Positions of faults

Where a fault in a line is reported: on the line, at one of its characters. There is one exception.
An unknown escape is reported behind the character that it escapes, which can be behind the end of
the line, and even on the next line when the backslash is the last character.

* `Error.Within`, `Error.PastEscape` — an error on a line, and one behind its end;
* `Cursor.StandsIn` — a cursor in a line, which moves on in the line with every token
  (`Cursor.StandsIn.next`);
* `Cursor.StandsIn.fault` — a fault in the line is reported there or behind its end;
* `Form.fails_read`, `fails_parseLine` — what is wrong with the tokens of a line is reported on it.

Faults come from two readers. The lexer reports a position that it computes while it goes on, so
that the invariant is where it stands: inside one line, with the front of the line behind it.
Wherever a token goes wrong, the position is that of its beginning, which lies on the line, or that
behind an unknown escape, which need not. The grammar reports the number of the line only, and takes
it from the tokens, each of which stands on the line; for every form the checks are gone through by
the rules for sequences, without a word about which of them fails.
-/

/-! ### Places of errors -/

/-- The error is reported on the line of the given number, and a lexical one at one of its
    characters. -/
inductive Error.Within (number : Nat) (line : List Char) : Error → Prop
  | grammar (fault : GrammarFault) : Within number line (.grammar number fault)
  | lexical {column : Nat} (fault : LexicalFault) (hfirst : 1 ≤ column)
      (hlast : column ≤ line.length) : Within number line (.lexical ⟨number, column⟩ fault)

/-- The line ends with an unknown escape, and the error is reported behind the escaped character. -/
inductive Error.PastEscape (number : Nat) (line : List Char) : Error → Prop
  /-- The character is the last one of the line. -/
  | sameLine {front : List Char} {c : Char} (h : line = front ++ ['\\', c]) :
      PastEscape number line (.lexical ⟨number, line.length + 1⟩ (.unknownEscape c))
  /-- The character is the newline behind the line. -/
  | nextLine {front : List Char} (h : line = front ++ ['\\']) :
      PastEscape number line (.lexical ⟨number + 1, 1⟩ (.unknownEscape '\n'))

/-- The error is reported on the line, or behind an unknown escape at its end. -/
def Error.Concerns (number : Nat) (line : List Char) (error : Error) : Prop :=
  error.Within number line ∨ error.PastEscape number line

/-- An error moves with the line that it concerns, whichever of the two ways it concerns the line
    in. -/
theorem Error.Concerns.shift {number : Nat} {line : List Char} {error : Error}
    (h : error.Concerns number line) (n : Nat) : (error.shift n).Concerns (number + n) line := by
  rcases h with h | h
  · cases h with
    | grammar fault => exact .inl (.grammar fault)
    | lexical fault hfirst hlast => exact .inl (.lexical fault hfirst hlast)
  · cases h with
    | sameLine h => exact .inr (.sameLine h)
    | nextLine h =>
      rw [Error.shift, Position.shift, Nat.add_right_comm]
      exact .inr (.nextLine h)

/-- The error is a fault of the grammar that is reported on the line of the given number. -/
def Error.IsGrammarOn (number : Nat) (error : Error) : Prop :=
  ∃ fault, error = .grammar number fault

namespace Netlist

/-! ### The end of a line -/

/-- Nothing follows, or a newline. -/
def EndsLine (tail : List Char) : Prop := ∀ c ∈ tail.head?, c = '\n'

/-- What has no newline in it lies in front of the end of the line. -/
theorem exists_back_of_append {front rest line tail : List Char} (h : front ++ rest = line ++ tail)
    (hfront : '\n' ∉ front) (htail : EndsLine tail) :
    ∃ back, line = front ++ back ∧ rest = back ++ tail := by
  rcases List.append_eq_append_iff.mp h with ⟨back, hline, hrest⟩ | ⟨more, hmore, htail'⟩
  · exact ⟨back, hline, hrest⟩
  · -- Otherwise the newline at the end of the line would be in front of it.
    cases more with
    | nil => exact ⟨[], by simpa using hmore.symm, by simpa using htail'.symm⟩
    | cons c more =>
      obtain rfl := htail c (by rw [htail']; rfl)
      exact absurd (by rw [hmore]; simp) hfront

/-- Behind characters without a newline the line is the first one still, and the column counts
    them. -/
theorem behind_of_line {front : List Char} (h : '\n' ∉ front) :
    Position.behind front = ⟨1, front.length + 1⟩ := by
  have hall : ∀ c ∈ front.reverse, decide (c ≠ '\n') = true := by
    intro c hc
    simpa using fun heq : c = '\n' => h (heq ▸ List.mem_reverse.mp hc)
  rw [Position.behind, List.count_eq_zero_of_not_mem h, List.takeWhile_eq_self_iff.mpr hall,
    List.length_reverse, Nat.add_comm 1 front.length]

/-- Behind a newline a new line begins at its first column. -/
theorem behind_newline (front : List Char) :
    Position.behind (front ++ ['\n']) = ⟨1 + front.count '\n' + 1, 1⟩ := by
  rw [← Position.after_behind]
  rfl

/-! ### Escapes -/

/-- A fault in the rest of a string is a fault of the string. -/
theorem reading_extend_error {α β : Type} {lexeme : Lexeme α} {front : List Char} {f : α → β}
    {fault : LexicalFault} (read : (lexeme.extend front f).reading = .error fault) :
    lexeme.reading = .error fault := by
  cases h : lexeme.reading with
  | ok part => simp [Lexeme.extend, h, Except.map] at read
  | error other => simpa [Lexeme.extend, h, Except.map] using read

/-- What is read of a string up to an unknown escape ends with this escape, and no newline stands in
    front of it, since the string would have been given up there. -/
theorem spelling_of_escape {text : List Char} {c : Char}
    (read : (readBody text).reading = .error (.unknownEscape c)) :
    ∃ body, (readBody text).spelling = body ++ ['\\', c] ∧ '\n' ∉ body := by
  -- The escape lies in the rest of the string, behind a character that is read or a known escape.
  fun_induction readBody text with
  | case1 | case2 | case3 | case4 => simp at read
  | case5 d text meant escape _ _ ih =>
    obtain ⟨body, hspelling, hbody⟩ := ih (reading_extend_error read)
    have plain : '\n' ≠ d := by rintro rfl; simp [unescape?] at escape
    refine ⟨'\\' :: d :: body, by simp [Lexeme.extend, hspelling], ?_⟩
    simpa [plain] using hbody
  | case6 d text escape =>
    simp only [Except.error.injEq, LexicalFault.unknownEscape.injEq] at read
    exact ⟨[], by rw [read]; rfl, by simp⟩
  | case7 d text quote newline backslash ih =>
    obtain ⟨body, hspelling, hbody⟩ := ih (reading_extend_error read)
    refine ⟨d :: body, by simp [Lexeme.extend, hspelling], ?_⟩
    simpa [Ne.symm newline] using hbody

/-- Only a string can have an unknown escape. A directive and a number are refused for something
    else, and whatever else begins a token is read without fail. -/
theorem spelling_of_unknownEscape {text : List Char} {c : Char}
    (read : (readLexeme text).reading = .error (.unknownEscape c)) :
    ∃ body, (readLexeme text).spelling = body ++ ['\\', c] ∧ '\n' ∉ body := by
  revert read
  fun_cases readLexeme text with
  | case1 | case2 | case6 | case7 => exact fun read => absurd read (by simp [readRun])
  | case8 => exact fun read => absurd read (by simp)
  | case3 | case5 =>
    intro read
    simp only [readDirective, readSigned] at read
    split at read <;> simp at read
  | case4 text =>
    intro read
    obtain ⟨body, hspelling, hbody⟩ := spelling_of_escape (reading_extend_error read)
    exact ⟨'"' :: body, by simp [Lexeme.extend, hspelling], by simpa using hbody⟩

/-- An unknown escape in a line is reported behind the character that it escapes. This is still
    a place in the line, or the place at its end, unless the escaped character is the newline
    itself. -/
theorem concerns_escape {front rest line tail : List Char} {c : Char} (hfront : '\n' ∉ front)
    (hline : '\n' ∉ line) (htail : EndsLine tail)
    (h : front ++ '\\' :: c :: rest = line ++ tail) :
    (Error.lexical (.behind (front ++ ['\\', c])) (.unknownEscape c)).Concerns 1 line := by
  rw [List.append_cons] at h
  have hbackslash : '\n' ∉ front ++ ['\\'] := by simpa using hfront
  obtain ⟨more, rfl, hmore⟩ := exists_back_of_append h hbackslash htail
  cases more with
  | nil =>
    -- The line ends with the backslash, so the newline behind it is what is escaped.
    obtain rfl : c = '\n' := htail c (by rw [← List.nil_append tail, ← hmore]; rfl)
    rw [List.append_nil, List.append_cons front '\\' ['\n'], behind_newline,
      List.count_eq_zero_of_not_mem hbackslash]
    exact .inr (.nextLine rfl)
  | cons d more =>
    obtain ⟨rfl, -⟩ := List.cons.inj hmore
    have hsplit : front ++ ['\\'] ++ c :: more = front ++ ['\\', c] ++ more := by simp
    rw [hsplit] at hline ⊢
    rw [behind_of_line fun hmem => hline (List.mem_append_left more hmem)]
    cases more with
    | nil =>
      rw [List.append_nil]
      exact .inr (.sameLine rfl)
    | cons e more =>
      have hlength : (front ++ ['\\', c] ++ e :: more).length =
          (front ++ ['\\', c]).length + (more.length + 1) := List.length_append
      exact .inl (.lexical _ (by omega) (by omega))

/-! ### Cursors in a line -/

namespace Cursor

variable {cursor stop : Cursor} {line : List Char} {token : Token} {error : Error}

/-- The cursor stands in the first line of a text, or right behind its last character. -/
structure StandsIn (cursor : Cursor) (line : List Char) : Prop where
  /-- There is one line only. -/
  inLine : '\n' ∉ line
  /-- The line consists of what the cursor has passed and of what is left in front of its end. -/
  place : ∃ front back tail, line = front ++ back ∧ cursor.rest = back ++ tail ∧
    cursor.position = .behind front ∧ EndsLine tail

namespace StandsIn

/-- A cursor that passes over characters of its line stays in the line. -/
theorem pass {text : List Char} (h : cursor.StandsIn line)
    (hrest : cursor.rest = text ++ stop.rest)
    (hposition : stop.position = cursor.position.after text) (htext : '\n' ∉ text) :
    stop.StandsIn line := by
  obtain ⟨front, back, tail, rfl, hback, hp, htail⟩ := h.place
  rw [hback] at hrest
  obtain ⟨left, rfl, hleft⟩ := exists_back_of_append hrest.symm htext htail
  refine ⟨h.inLine, front ++ text, left, tail, by rw [List.append_assoc], hleft, ?_, htail⟩
  rw [hposition, hp, Position.after_behind]

/-- To skip a gap keeps the cursor in its line, since a gap has no newline in it. -/
theorem skipGap (h : cursor.StandsIn line) : cursor.skipGap.StandsIn line :=
  h.pass (splitGap_append ..).symm rfl (isGap_splitGap _).newline_not_mem

/-- A token that does not end the line leads on in the line. -/
theorem next (h : cursor.StandsIn line) (read : cursor.next = (.ok token, stop))
    (inside : token.kind ≠ .newline) : stop.StandsIn line := by
  obtain ⟨_, rfl, reading, -, rfl⟩ := lexeme_of_next read
  exact h.skipGap.pass (readLexeme_append _).symm rfl (newline_not_mem_readLexeme reading inside)

end StandsIn

/-- What is wrong behind a gap is reported where it begins, except for an unknown escape. -/
theorem fault_of_next (read : cursor.next = (.error error, stop)) :
    ∃ fault, (readLexeme cursor.skipGap.rest).reading = .error fault ∧
      error = .lexical (fault.position cursor.skipGap.position
        (cursor.skipGap.position.after (readLexeme cursor.skipGap.rest).spelling)) fault := by
  simp only [Cursor.next] at read
  split at read
  · simp at read
  · next fault reading =>
    simp only [Prod.mk.injEq, Except.error.injEq] at read
    exact ⟨fault, reading, read.1.symm⟩

/-- A fault in the line is reported on the line, or behind an unknown escape at its end. Every other
    fault is reported where the token begins, which is inside of the line because something is left
    to be wrong. -/
theorem StandsIn.fault (h : cursor.StandsIn line) (read : cursor.next = (.error error, stop)) :
    error.Concerns 1 line := by
  obtain ⟨fault, reading, rfl⟩ := fault_of_next read
  have hline := h.inLine
  obtain ⟨front, back, tail, rfl, hback, hp, htail⟩ := h.skipGap.place
  have hfront : '\n' ∉ front := fun hmem => hline (List.mem_append_left back hmem)
  -- At the end of the line there is nothing to be wrong, so the fault has a first character.
  have hnonempty : back ≠ [] := by
    rintro rfl
    rw [hback] at reading
    cases tail with
    | nil => simp [readLexeme] at reading
    | cons c tail =>
      obtain rfl := htail c rfl
      simp [readLexeme] at reading
  cases fault with
  | unknownEscape c =>
    obtain ⟨body, hspelling, hbody⟩ := spelling_of_unknownEscape reading
    have hrest := readLexeme_append cursor.skipGap.rest
    rw [hspelling, hback] at hrest
    rw [LexicalFault.position, hspelling, hp, Position.after_behind, ← List.append_assoc]
    have hwhole := congrArg (front ++ ·) hrest
    exact concerns_escape (by simp [hfront, hbody]) hline htail (by simpa using hwhole)
  | _ =>
    show (Error.lexical cursor.skipGap.position _).Concerns 1 _
    rw [hp, behind_of_line hfront]
    have hlength := List.length_pos_of_ne_nil hnonempty
    exact .inl (.lexical _ (by omega) (by rw [List.length_append]; omega))

/-- A fault behind tokens of the same line is reported there as well. -/
theorem StandsIn.fault_of_tokens (h : cursor.StandsIn line)
    (hinside : ∀ token ∈ cursor.tokens.tokens, token.kind ≠ .newline)
    (hfault : cursor.tokens.fault = some error) : error.Concerns 1 line := by
  fun_induction tokens cursor with
  | case1 cursor fault stop read =>
    obtain rfl := Option.some.inj hfault
    exact h.fault read
  | case2 cursor token stop read ended => simp at hfault
  | case3 cursor token stop read more _ following ih =>
    obtain ⟨hhere, hbehind⟩ := List.forall_mem_cons.mp hinside
    exact ih (h.next read hhere) hbehind hfault

/-- Where no line ends, all tokens are on the line of the cursor. -/
theorem line_of_tokens (cursor : Cursor)
    (hinside : ∀ token ∈ cursor.tokens.tokens, token.kind ≠ .newline) :
    ∀ token ∈ cursor.tokens.tokens, token.line = cursor.position.line := by
  fun_induction tokens cursor with
  | case1 | case2 => simp
  | case3 cursor token stop read more _ following ih =>
    obtain ⟨hhere, hbehind⟩ := List.forall_mem_cons.mp hinside
    obtain ⟨hline, hstop⟩ := line_of_next read
    rw [if_neg hhere, Nat.add_zero] at hstop
    exact List.forall_mem_cons.mpr ⟨hline, hstop ▸ ih hbehind⟩

/-- Without a newline in the text there is none among the tokens, as the token of a newline is
    spelled by one. -/
theorem newline_not_mem_tokens {cursor : Cursor} (h : '\n' ∉ cursor.rest) :
    ∀ token ∈ cursor.tokens.tokens, token.kind ≠ .newline := by
  fun_induction tokens cursor with
  | case1 | case2 => simp
  | case3 cursor token stop read more _ following ih =>
    obtain ⟨_, rfl, reading, -, rfl⟩ := lexeme_of_next read
    have hgap : '\n' ∉ cursor.skipGap.rest := by
      rw [← splitGap_append .blank cursor.rest] at h
      exact fun hmem => h (List.mem_append_right _ hmem)
    rw [← readLexeme_append cursor.skipGap.rest, List.mem_append, not_or] at hgap
    refine List.forall_mem_cons.mpr ⟨fun ended => hgap.1 ?_, ih hgap.2⟩
    rw [spelling_of_newline (ended ▸ reading)]
    exact List.mem_singleton_self _

end Cursor

/-! ### Faults of the grammar -/

section Grammar

variable {line : Nat}

/-- A token is refused on its own line. -/
theorem fails_refuse {α : Type} {token : Token} (h : token.line = line) (fault : GrammarFault) :
    FailsWith (Error.IsGrammarOn line) (token.refuse fault : Except Error α) :=
  .of_error ⟨fault, by rw [h]⟩

/-- A missing value is reported on the line that is given. -/
theorem fails_orFault {α : Type} (line : Nat) (fault : GrammarFault) (value : Option α) :
    FailsWith (Error.IsGrammarOn line) (orFault line fault value) := by
  cases value with
  | none => exact .of_error ⟨fault, rfl⟩
  | some value => exact .of_ok value

/-- What is no identifier is refused on its own line. -/
theorem Token.fails_identifier {token : Token} (h : token.line = line) :
    FailsWith (Error.IsGrammarOn line) token.identifier := by
  unfold identifier
  split
  · exact .of_ok _
  · exact fails_refuse h _

/-- What is no constant is refused on its own line, and so is a numeral that does not fit. -/
theorem Token.fails_constant {token : Token} (h : token.line = line) :
    FailsWith (Error.IsGrammarOn line) token.constant := by
  unfold constant
  repeat' split
  all_goals first | exact .of_ok _ | exact fails_refuse h _

/-- What is no operand is refused on its own line. -/
theorem Token.fails_operand {token : Token} (h : token.line = line) :
    FailsWith (Error.IsGrammarOn line) token.operand := by
  unfold operand
  split
  · exact .of_ok _
  · exact (fails_identifier h).map

/-- The part of a port behind its name is refused on its line. -/
theorem Form.fails_readPortOf {word typeName : Token} (name : Option String)
    (h : typeName.line = line) :
    FailsWith (Error.IsGrammarOn line) (readPortOf line name word typeName) :=
  (fails_orFault _ _ _).bind fun _ => (Token.fails_identifier h).bind fun _ => .of_ok _

/-- The part of a parameter other than its default is refused on its line. -/
theorem Form.fails_readParamOf {name typeName : Token} (default : Option Constant)
    (hname : name.line = line) (htype : typeName.line = line) :
    FailsWith (Error.IsGrammarOn line) (readParamOf line name typeName default) :=
  (Token.fails_identifier hname).bind fun _ => (Token.fails_identifier htype).bind fun _ => .of_ok _

/-- A form is refused on the line of its arguments. The errors of its parts carry the line of a
    token, and all tokens of the line have the same. -/
theorem Form.fails_read (form : Form) {arguments : List Token}
    (h : ∀ token ∈ arguments, token.line = line) :
    FailsWith (Error.IsGrammarOn line) (form.read line arguments) := by
  have malformed (form : Form) : FailsWith (Error.IsGrammarOn line)
      (.error (.grammar line (.malformed form)) : Except Error Entry) := .of_error ⟨_, rfl⟩
  -- One case for each form. A wrong number of arguments is malformed, and any other line fails
  -- where one of its checks does.
  cases form
  case graph =>
    match arguments with
    | [] | _ :: _ :: _ => exact malformed _
    | [name] => exact (Token.fails_identifier (h _ (by simp))).bind fun _ => .of_ok _
  case type =>
    match arguments with
    | [] | [_] | _ :: _ :: _ :: _ :: _ => exact malformed _
    | [name, kind] =>
      exact (fails_orFault _ _ _).bind fun _ =>
        (Token.fails_identifier (h _ (by simp))).bind fun _ => .of_ok _
    | [name, kind, width] =>
      rw [read_vector]
      split
      · exact (fails_orFault _ _ _).bind fun _ =>
          (Token.fails_identifier (h _ (by simp))).bind fun _ => .of_ok _
      · exact malformed _
  case port =>
    match arguments with
    | [] | [_] | _ :: _ :: _ :: _ :: _ => exact malformed _
    | [word, typeName] => exact fails_readPortOf none (h _ (by simp))
    | [name, word, typeName] =>
      exact (Token.fails_identifier (h _ (by simp))).bind fun _ =>
        fails_readPortOf _ (h _ (by simp))
  case signal =>
    match arguments with
    | [] | _ :: _ :: _ :: _ => exact malformed _
    | [typeName] => exact (Token.fails_identifier (h _ (by simp))).bind fun _ => .of_ok _
    | [name, typeName] =>
      exact (Token.fails_identifier (h _ (by simp))).bind fun _ =>
        (Token.fails_identifier (h _ (by simp))).bind fun _ => .of_ok _
  case param =>
    match arguments with
    | [] | [_] | _ :: _ :: _ :: _ :: _ => exact malformed _
    | [name, typeName] => exact fails_readParamOf none (h _ (by simp)) (h _ (by simp))
    | [name, typeName, value] =>
      exact (Token.fails_constant (h _ (by simp))).bind fun _ =>
        fails_readParamOf _ (h _ (by simp)) (h _ (by simp))
  case expr =>
    match arguments with
    | [] | [_] | [_, _] | [_, _, _] | _ :: _ :: _ :: _ :: _ :: _ => exact malformed _
    | [name, op, lhs, rhs] =>
      exact (fails_orFault _ _ _).bind fun _ =>
        (Token.fails_identifier (h _ (by simp))).bind fun _ =>
          (Token.fails_operand (h _ (by simp))).bind fun _ =>
            (Token.fails_operand (h _ (by simp))).bind fun _ => .of_ok _
  case connect =>
    match arguments with
    | [] | [_] | _ :: _ :: _ :: _ => exact malformed _
    | [destination, source] =>
      exact (Token.fails_identifier (h _ (by simp))).bind fun _ =>
        (Token.fails_operand (h _ (by simp))).bind fun _ => .of_ok _

/-- A line that begins with nothing known is refused on the line of its first token. -/
theorem Entry.fails_form (head : Token) : FailsWith (Error.IsGrammarOn head.line) (form head) := by
  unfold form
  split
  · exact fails_orFault _ _ _
  · exact fails_orFault _ _ _
  · exact fails_refuse rfl _

/-- A line is refused for a fault of its grammar, or for the fault in which its tokens end. -/
theorem fails_parseLine (fault : Option Error) {tokens : List Token}
    (h : ∀ token ∈ tokens, token.line = line) :
    FailsWith (fun error => error.IsGrammarOn line ∨ fault = some error)
      (parseLine fault tokens) := by
  intro error herror
  -- A fault of the lexer counts only if there is no token in front of it that could not begin a
  -- line.
  match tokens, fault with
  | [], none => simp [parseLine] at herror
  | [], some fault =>
    exact .inr (congrArg some (Except.error.inj herror))
  | head :: arguments, none =>
    obtain ⟨rfl, harguments⟩ := List.forall_mem_cons.mp h
    have hread : FailsWith (Error.IsGrammarOn head.line) (Entry.read head arguments) :=
      (Entry.fails_form head).bind fun form => form.fails_read harguments
    exact .inl (hread.map error herror)
  | head :: arguments, some fault =>
    rw [parseLine] at herror
    split at herror
    · exact .inr (congrArg some (Except.error.inj herror))
    · exact .inl (fails_refuse (h head List.mem_cons_self) _ error herror)

end Grammar

/-! ### Single lines -/

/-- Tokens without a newline among them are one line, and so there is one line even if there is no
    token. -/
theorem splitLines_of_line {tokens : List Token} (h : ∀ token ∈ tokens, token.kind ≠ .newline) :
    splitLines tokens = [tokens] := by
  induction tokens with
  | nil => rfl
  | cons token tokens ih =>
    obtain ⟨hhere, hbehind⟩ := List.forall_mem_cons.mp h
    simp [splitLines, hhere, ih hbehind]

/-- What is wrong with the line in which a cursor stands is reported there, be it a fault of the
    lexer or one of the grammar. -/
theorem Cursor.StandsIn.fails_readEntries {cursor : Cursor} {line : List Char}
    (h : cursor.StandsIn line) (hstart : cursor.position.line = 1)
    (hinside : ∀ token ∈ cursor.tokens.tokens, token.kind ≠ .newline) :
    FailsWith (Error.Concerns 1 line) (readEntries cursor) := by
  have hline := cursor.line_of_tokens hinside
  rw [hstart] at hline
  have hfails : FailsWith (fun error => error.IsGrammarOn 1 ∨ cursor.tokens.fault = some error)
      (readEntries cursor) := by
    rw [readEntries, splitLines_of_line hinside]
    exact (fails_parseLine _ hline).bind fun _ => .of_ok _
  intro error herror
  rcases hfails error herror with ⟨fault, rfl⟩ | hfault
  · exact .inl (.grammar fault)
  · exact h.fault_of_tokens hinside hfault

end Netlist

end Schematic
