import Schematic.Netlist.Fault
import Schematic.Netlist.Token
import Schematic.Text.Numeric

namespace Schematic.Netlist

open Text

/-!
# Lexemes

One token cut off the front of a text, without regard to where in the input the text stands.

* `Lexeme` — what was read, its spelling and the rest of the text;
* `readBody` — the body of a string;
* `readLexeme` — a token of any kind;
* `readLexeme_append` — spelling and rest make up the text;
* `isNameChar_of_isNameStart` — what begins a name continues it, so that a name is never empty;
* `length_rest_lt` — only the end of the input is read from no character at all.
-/

/-- What stands at the front of a text. -/
structure Lexeme (α : Type) where
  /-- What it means, or why it means nothing. -/
  reading : Except LexicalFault α
  /-- The characters that have been read. -/
  spelling : List Char
  /-- The characters behind them. -/
  rest : List Char

namespace Lexeme

variable {α β : Type}

/-- A lexeme with more characters in front. -/
def extend (front : List Char) (f : α → β) (lexeme : Lexeme α) : Lexeme β :=
  ⟨lexeme.reading.map f, front ++ lexeme.spelling, lexeme.rest⟩

end Lexeme

/-- A character that can begin a name. -/
def isNameStart (c : Char) : Bool := isAlphabetic c || c = '_'

/-- A character that can continue a name. -/
def isNameChar (c : Char) : Bool := isAlphanumeric c || c = '_'

/-- The character that is meant by `c` behind a backslash. -/
def unescape? (c : Char) : Option Char :=
  if c = 'n' then some '\n'
  else if c = 't' then some '\t'
  else if c = '"' ∨ c = '\\' then some c
  else none

/-- Reads what stands behind the opening quote of a string, up to its closing quote. A string does
    not go on behind the end of its line. -/
def readBody : List Char → Lexeme (List Char)
  | [] => ⟨.error .unterminatedString, [], []⟩
  | c :: cs =>
    if c = '"' then ⟨.ok [], [c], cs⟩
    else if c = '\n' then ⟨.error .unterminatedString, [], c :: cs⟩
    else if c = '\\' then
      match cs with
      | [] => ⟨.error .unterminatedString, [c], []⟩
      | d :: ds =>
        match unescape? d with
        | some meant => (readBody ds).extend [c, d] (meant :: ·)
        | none => ⟨.error (.unknownEscape d), [c, d], ds⟩
    else (readBody cs).extend [c] (c :: ·)

/-- Reads a directive behind its dot. -/
def readDirective (text : List Char) : Lexeme (TokenKind × String) :=
  let name := text.takeWhile isNameChar
  let reading :=
    if name = [] then .error .emptyDirective else .ok (.directive, String.ofList ('.' :: name))
  ⟨reading, '.' :: name, text.dropWhile isNameChar⟩

/-- Reads a number behind its sign. -/
def readSigned (sign : Char) (text : List Char) : Lexeme (TokenKind × String) :=
  let digits := text.takeWhile Char.isDigit
  let reading :=
    if digits = [] then .error (.missingDigits sign)
    else .ok (.number, String.ofList (sign :: digits))
  ⟨reading, sign :: digits, text.dropWhile Char.isDigit⟩

/-- Reads a token that consists of all characters at the front of the text that `continues` allows,
    the first one included. It is up to the caller that there is one. -/
def readRun (kind : TokenKind) (continues : Char → Bool) (text : List Char) :
    Lexeme (TokenKind × String) :=
  let spelling := text.takeWhile continues
  ⟨.ok (kind, String.ofList spelling), spelling, text.dropWhile continues⟩

/-- Reads the token at the front of a text that does not begin with a gap. A character that begins
    no token is left where it is. -/
def readLexeme : List Char → Lexeme (TokenKind × String)
  | [] => ⟨.ok (.endOfInput, ""), [], []⟩
  | c :: cs =>
    if c = '\n' then ⟨.ok (.newline, "\n"), [c], cs⟩
    else if c = '.' then readDirective cs
    else if c = '"' then (readBody cs).extend [c] fun body => (.string, String.ofList body)
    else if c = '-' ∨ c = '+' then readSigned c cs
    else if c.isDigit then readRun .number Char.isDigit (c :: cs)
    else if isNameStart c then readRun .identifier isNameChar (c :: cs)
    else ⟨.error (.unexpectedCharacter c), [], c :: cs⟩

/-! ### Spelling and rest -/

/-- What begins a name continues it. Without this, a name could begin with a character that no call
    ever uses up. -/
theorem isNameChar_of_isNameStart {c : Char} (h : isNameStart c = true) : isNameChar c = true := by
  rw [isNameStart, Bool.or_eq_true] at h
  rw [isNameChar, Bool.or_eq_true]
  exact h.imp_left isAlphanumeric_of_isAlphabetic

/-- A run uses up its first character if this continues it. -/
theorem spelling_readRun_ne_nil {continues : Char → Bool} {c : Char} (h : continues c = true)
    (kind : TokenKind) (text : List Char) : (readRun kind continues (c :: text)).spelling ≠ [] := by
  rw [readRun, List.takeWhile_cons_of_pos h]
  exact List.cons_ne_nil c _

/-- The spelling of a body and the rest make up the text. Nothing is dropped where a fault is
    found. -/
theorem readBody_append (text : List Char) :
    (readBody text).spelling ++ (readBody text).rest = text := by
  fun_induction readBody text <;> simp_all [Lexeme.extend]

/-- The spelling of a lexeme and the rest make up the text. -/
theorem readLexeme_append (text : List Char) :
    (readLexeme text).spelling ++ (readLexeme text).rest = text := by
  fun_cases readLexeme text <;>
    simp [readDirective, readSigned, readRun, Lexeme.extend, readBody_append,
      List.takeWhile_append_dropWhile, *]

/-- Only the end of the input is read from no character at all. A newline, a dot, a quote and a sign
    are used up whatever stands behind them, and a number or a name is used up at least by the
    character that it begins with. -/
theorem length_rest_lt {text : List Char} {kind : TokenKind} {word : String}
    (read : (readLexeme text).reading = .ok (kind, word)) (more : kind ≠ .endOfInput) :
    (readLexeme text).rest.length < text.length := by
  have whole := congrArg List.length (readLexeme_append text)
  rw [List.length_append] at whole
  suffices hspelling : (readLexeme text).spelling ≠ [] by
    have hpos := List.length_pos_iff.mpr hspelling
    omega
  revert read
  fun_cases readLexeme text with
  | case1 =>
    intro read
    exact absurd (Prod.mk.inj (Except.ok.inj read)).1.symm more
  | case2 | case3 | case4 | case5 => simp [readDirective, readSigned, Lexeme.extend]
  | case6 c text _ _ _ _ digit => exact fun _ => spelling_readRun_ne_nil digit _ text
  | case7 c text _ _ _ _ _ start =>
    exact fun _ => spelling_readRun_ne_nil (isNameChar_of_isNameStart start) _ text
  | case8 => simp

end Schematic.Netlist
