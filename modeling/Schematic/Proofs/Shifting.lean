import Schematic.Netlist.Parser

namespace Schematic

open Text

/-!
# Reading further down

What a text says does not depend on the number of the line on which it begins, except for the
numbers of lines in it.

* `Position.shift`, `Token.shift`, `Entry.shift`, `Error.shift` — the same thing some lines further
  down;
* `shifted` — the same outcome some lines further down;
* `Cursor.next_shift`, `Cursor.tokens_shift` — lexing;
* `Form.read_shift`, `Netlist.parseLines_shift` — the meaning of tokens;
* `Netlist.readEntries` — the entries from a cursor on, which `Netlist.parse` collects;
* `Netlist.readEntries_shift` — the result for a whole text.

A line number enters by the position of a token, is copied into an entry or an error, and is never
compared with anything. So every function on the way from characters to entries has an equation that
moves its argument on one side and its result on the other. The equations for small functions are
tagged for the simplifier; a reader is then opened once, and what is left is to see that moving the
arguments of a line makes no difference to how many there are and what they say. The positions of
characters are the only place where the number is computed, and there lines and columns are apart.
-/

/-! ### The same things further down -/

/-- The same column, `n` lines further down. -/
def Text.Position.shift (n : Nat) (position : Position) : Position :=
  ⟨position.line + n, position.column⟩

/-- The same error, `n` lines further down. -/
def Error.shift (n : Nat) : Error → Error
  | .lexical position fault => .lexical (position.shift n) fault
  | .grammar line fault => .grammar (line + n) fault
  | .unknownType name line => .unknownType name (line + n)
  | error => error

/-- The same outcome, `n` lines further down, where `f` moves the result. -/
def shifted {α β : Type} (n : Nat) (f : α → β) : Except Error α → Except Error β
  | .ok value => .ok (f value)
  | .error error => .error (error.shift n)

namespace Netlist

/-- The same token, `n` lines further down. -/
def Token.shift (n : Nat) (token : Token) : Token :=
  { token with position := token.position.shift n }

/-- The same type declaration, `n` lines further down. -/
def TypeDecl.shift (n : Nat) (decl : TypeDecl) : TypeDecl := { decl with line := decl.line + n }

/-- The same node declaration, `n` lines further down. -/
def NodeDecl.shift (n : Nat) (decl : NodeDecl) : NodeDecl := { decl with line := decl.line + n }

/-- The same connection, `n` lines further down. -/
def Connection.shift (n : Nat) (connection : Connection) : Connection :=
  { connection with line := connection.line + n }

/-- The same entry, `n` lines further down. -/
def Entry.shift (n : Nat) : Entry → Entry
  | .name text => .name text
  | .type decl => .type (decl.shift n)
  | .node decl => .node (decl.shift n)
  | .connection made => .connection (made.shift n)

/-- The same place of the input, when the input begins `n` lines further down. -/
def Cursor.shift (n : Nat) (cursor : Cursor) : Cursor :=
  { cursor with position := cursor.position.shift n }

/-- The same tokens, `n` lines further down. -/
def TokenStream.shift (n : Nat) (stream : TokenStream) : TokenStream :=
  ⟨stream.tokens.map (Token.shift n), stream.fault.map (Error.shift n)⟩

end Netlist

/-! ### Outcomes -/

section Outcomes

variable {α β : Type} {n : Nat}

/-- Outcomes can be compared. -/
instance [DecidableEq α] : DecidableEq (Except Error α)
  | .ok value, .ok other => decidable_of_iff (value = other) (by simp)
  | .error error, .error other => decidable_of_iff (error = other) (by simp)
  | .ok _, .error _ => .isFalse (by simp)
  | .error _, .ok _ => .isFalse (by simp)

/-- A value is moved by the function that is given for values. -/
@[simp] theorem shifted_ok (f : α → β) (value : α) : shifted n f (.ok value) = .ok (f value) := rfl

/-- An error is moved like any other thing with a line in it, whatever the function for values
    is. -/
@[simp] theorem shifted_error (f : α → β) (error : Error) :
    shifted n f (.error error) = .error (error.shift n) := rfl

/-- What is read first is not moved itself if it holds no line. -/
@[simp] theorem shifted_bind {γ : Type} (f : β → γ) (first : Except Error α)
    (next : α → Except Error β) :
    shifted n f (first >>= next) =
      shifted n id first >>= fun value => shifted n f (next value) := by
  cases first <;> rfl

/-- A function of the outcome can be applied before or after the outcome is moved, as long as its
    values carry no lines. -/
@[simp] theorem shifted_map {γ : Type} (f : β → γ) (g : α → β) (outcome : Except Error α) :
    shifted n f (g <$> outcome) = (fun value => f (g value)) <$> shifted n id outcome := by
  cases outcome <;> rfl

end Outcomes

namespace Netlist

variable {n : Nat}

/-! ### Lexing -/

/-- The place behind a character is the same further down, whether the character ends a line or
    not. -/
theorem advance_shift (position : Position) (c : Char) :
    (position.shift n).advance c = (position.advance c).shift n := by
  by_cases h : c = '\n'
  · simp [Position.advance, Position.shift, h, Nat.add_right_comm]
  · simp [Position.advance, Position.shift, h]

/-- The place behind a text is the same further down. -/
theorem after_shift (position : Position) (text : List Char) :
    (position.shift n).after text = (position.after text).shift n := by
  induction text generalizing position with
  | nil => rfl
  | cons c text ih => rw [Position.after_cons, Position.after_cons, advance_shift, ih]

/-- A fault is reported at the same place further down, whether that is in front of its token or
    behind it. -/
theorem LexicalFault.position_shift (fault : LexicalFault) (start stop : Position) :
    fault.position (start.shift n) (stop.shift n) = (fault.position start stop).shift n := by
  cases fault <;> rfl

/-- The next token is the same further down. -/
theorem Cursor.next_shift (cursor : Cursor) :
    (cursor.shift n).next = (shifted n (Token.shift n) cursor.next.1, cursor.next.2.shift n) := by
  simp only [Cursor.next, Cursor.skipGap, Cursor.shift, after_shift, LexicalFault.position_shift]
  split <;> rfl

/-- All tokens are the same further down, with the same kinds, texts and columns, and so is the
    fault in which they may end. -/
theorem Cursor.tokens_shift (cursor : Cursor) :
    (cursor.shift n).tokens = cursor.tokens.shift n := by
  fun_induction Cursor.tokens cursor with
  | case1 cursor fault stop read =>
    rw [Cursor.tokens_eq, Cursor.next_shift, read]
    rfl
  | case2 cursor token stop read ended =>
    rw [Cursor.tokens_eq, Cursor.next_shift, read]
    simp [Token.shift, TokenStream.shift, ended]
  | case3 cursor token stop read more _ following ih =>
    rw [Cursor.tokens_eq, Cursor.next_shift, read]
    simp [Token.shift, TokenStream.shift, more, ih, following]

/-! ### The meaning of tokens -/

/-- A token is of the same kind further down. -/
@[simp] theorem Token.kind_shift (token : Token) : (token.shift n).kind = token.kind := rfl

/-- A token has the same text further down. -/
@[simp] theorem Token.text_shift (token : Token) : (token.shift n).text = token.text := rfl

/-- The line of a token further down is the number that it should be. -/
@[simp] theorem Token.line_shift (token : Token) : (token.shift n).line = token.line + n := rfl

/-- A token is refused on its own line, wherever that is. -/
@[simp] theorem Token.refuse_shift {α β : Type} (f : α → β) (token : Token) (fault : GrammarFault) :
    (token.shift n).refuse fault = shifted n f (token.refuse fault) := rfl

/-- A token names the same thing further down, or is refused there as it is here. -/
@[simp] theorem Token.identifier_shift (token : Token) :
    (token.shift n).identifier = shifted n id token.identifier := by
  by_cases h : token.kind = .identifier
  · simp [Token.identifier, h]
  · simp [Token.identifier, h, Token.refuse_shift id]

/-- A token stands for the same constant further down, or is refused there as it is here. -/
@[simp] theorem Token.constant_shift (token : Token) :
    (token.shift n).constant = shifted n id token.constant := by
  simp only [Token.constant, Token.kind_shift, Token.text_shift, Token.refuse_shift id]
  repeat' split
  all_goals rfl

/-- A token stands for the same operand further down, or is refused there as it is here. -/
@[simp] theorem Token.operand_shift (token : Token) :
    (token.shift n).operand = shifted n id token.operand := by
  simp only [Token.operand, Token.constant_shift, Token.identifier_shift]
  cases token.constant with
  | ok value => rfl
  | error error => cases token.identifier <;> rfl

/-- A missing value is reported on the same line further down. -/
@[simp] theorem orFault_shift {α : Type} (line : Nat) (fault : GrammarFault) (value : Option α) :
    orFault (line + n) fault value = shifted n id (orFault line fault value) := by
  cases value <;> rfl

namespace Form

/-- A line with the same arguments further down. Each form looks at some of them before the others,
    and nothing that it looks at but the line moves. -/
theorem read_shift (form : Form) (line : Nat) (arguments : List Token) :
    form.read (line + n) (arguments.map (Token.shift n)) =
      shifted n (Entry.shift n) (form.read line arguments) := by
  -- One case for each form, and in it one for each number of arguments that the form takes.
  cases form
  case graph =>
    match arguments with
    | [] | _ :: _ :: _ => rfl
    | [name] => simp [read, readGraph, Entry.shift]
  case type =>
    match arguments with
    | [] | [_] | _ :: _ :: _ :: _ :: _ => rfl
    | [name, kind] => simp [read, readType, Entry.shift, TypeDecl.shift]
    | [name, kind, width] =>
      by_cases h : kind.text.toLower = "vector"
      · simp [read, readType, Entry.shift, TypeDecl.shift, h]
      · simp [read, readType, h]
        rfl
  case port =>
    match arguments with
    | [] | [_] | _ :: _ :: _ :: _ :: _ => rfl
    | [direction, typeName] => simp [read, readPort, readPortOf, Entry.shift, NodeDecl.shift]
    | [name, direction, typeName] =>
      simp [read, readPort, readPortOf, Entry.shift, NodeDecl.shift]
  case signal =>
    match arguments with
    | [] | _ :: _ :: _ :: _ => rfl
    | [typeName] => simp [read, readSignal, Entry.shift, NodeDecl.shift]
    | [name, typeName] => simp [read, readSignal, Entry.shift, NodeDecl.shift]
  case param =>
    match arguments with
    | [] | [_] | _ :: _ :: _ :: _ :: _ => rfl
    | [name, typeName] => simp [read, readParam, readParamOf, Entry.shift, NodeDecl.shift]
    | [name, typeName, value] =>
      simp [read, readParam, readParamOf, Entry.shift, NodeDecl.shift]
  case expr =>
    match arguments with
    | [] | [_] | [_, _] | [_, _, _] | _ :: _ :: _ :: _ :: _ :: _ => rfl
    | [name, op, lhs, rhs] => simp [read, readExpr, Entry.shift, NodeDecl.shift]
  case connect =>
    match arguments with
    | [] | [_] | _ :: _ :: _ :: _ => rfl
    | [destination, source] => simp [read, readConnect, Entry.shift, Connection.shift]

end Form

namespace Entry

/-- A line is announced for the same form further down. -/
theorem form_shift (head : Token) : form (head.shift n) = shifted n id (form head) := by
  rw [form, form, Token.kind_shift, Token.line_shift, Token.text_shift]
  split
  · exact orFault_shift ..
  · exact orFault_shift ..
  · exact Token.refuse_shift ..

/-- A line says the same further down, or is refused there as it is here. -/
theorem read_shift (head : Token) (arguments : List Token) :
    read (head.shift n) (arguments.map (Token.shift n)) =
      shifted n (Entry.shift n) (read head arguments) := by
  simp [read, form_shift, Form.read_shift]

end Entry

/-! ### Lines -/

/-- Where a line ends is told by the kinds of the tokens alone. -/
theorem splitLines_map {f : Token → Token} (hkind : ∀ token, (f token).kind = token.kind)
    (tokens : List Token) :
    splitLines (tokens.map f) = (splitLines tokens).map (List.map f) := by
  fun_induction splitLines tokens with
  | case1 => rfl
  | case2 token tokens ended ih => simp [splitLines, hkind, ended, ih]
  | case3 token tokens more none ih => simp [splitLines, hkind, more, ih, none]
  | case4 token tokens more line lines some ih => simp [splitLines, hkind, more, ih, some]

/-- Tokens further down make up the same lines further down. -/
theorem splitLines_shift (tokens : List Token) :
    splitLines (tokens.map (Token.shift n)) =
      (splitLines tokens).map (List.map (Token.shift n)) :=
  splitLines_map (f := Token.shift n) (fun _ => rfl) tokens

/-- A line of tokens is read as the same entry further down, also where a fault stands behind its
    tokens. -/
theorem parseLine_shift (fault : Option Error) (tokens : List Token) :
    parseLine (fault.map (Error.shift n)) (tokens.map (Token.shift n)) =
      shifted n (Option.map (Entry.shift n)) (parseLine fault tokens) := by
  -- Without tokens the fault is all there is, and with tokens it counts only if they begin as a
  -- line may.
  match tokens, fault with
  | [], none | [], some error => rfl
  | head :: arguments, none =>
    have h := Entry.read_shift (n := n) head arguments
    simp only [parseLine, Option.map_none, List.map_cons, h]
    cases Entry.read head arguments <;> rfl
  | head :: _, some error =>
    by_cases h : Entry.canBegin head.kind
    · simp [parseLine, h]
    · simp [parseLine, h, Token.refuse_shift (Option.map (Entry.shift n))]

/-- Lines of tokens are read as the same entries further down. By recursion on the lines, of which
    only the last one can have a fault behind it. -/
theorem parseLines_shift (fault : Option Error) (lines : List (List Token)) :
    parseLines (fault.map (Error.shift n)) (lines.map (List.map (Token.shift n))) =
      shifted n (List.map (Entry.shift n)) (parseLines fault lines) := by
  match lines with
  | [] => rfl
  | [line] =>
    simp only [parseLines, List.map_cons, List.map_nil, parseLine_shift]
    rcases parseLine fault line with _ | _ | _ <;> rfl
  | line :: next :: lines =>
    have head := parseLine_shift (n := n) none line
    have tail := parseLines_shift fault (next :: lines)
    simp only [Option.map_none, List.map_cons] at head tail
    simp only [parseLines, List.map_cons, head, tail]
    rcases parseLine none line with _ | _ | _ <;>
      rcases parseLines fault (next :: lines) with _ | _ <;> rfl

/-! ### Whole texts -/

/-- The entries of a text, from the cursor on. -/
def readEntries (cursor : Cursor) : Except Error (List Entry) :=
  parseLines cursor.tokens.fault (splitLines cursor.tokens.tokens)

/-- To parse a text is to collect the entries that are read from its first character on. -/
theorem parse_eq (text : String) : parse text = (readEntries (.ofText text)).map ofEntries := rfl

/-- The entries of a text are the same further down. -/
theorem readEntries_shift (cursor : Cursor) :
    readEntries (cursor.shift n) = shifted n (List.map (Entry.shift n)) (readEntries cursor) := by
  rw [readEntries, Cursor.tokens_shift, readEntries, ← parseLines_shift, ← splitLines_shift]
  rfl

end Netlist

end Schematic
