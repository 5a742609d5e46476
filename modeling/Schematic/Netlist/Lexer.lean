import Schematic.Error
import Schematic.Netlist.Gap
import Schematic.Netlist.Lexeme

namespace Schematic.Netlist

open Text

/-!
# Lexing

The tokens of a netlist, one by one and all at once.

* `Cursor` — a place in the input, with what stands behind it;
* `Cursor.next` — the next token or what is wrong there, and the place behind it;
* `Cursor.tokens` — the tokens up to the end of the input or to the first error;
* `Cursor.tokens_eq` — one step of it;
* `Cursor.length_rest_next_lt` — a token other than the end of the input uses up characters.
-/

/-- A place in the input. -/
structure Cursor where
  /-- The characters from here on. -/
  rest : List Char
  /-- The position of the first of them. -/
  position : Position

/-- The tokens of a text, up to its end or to the first error. -/
structure TokenStream where
  /-- The tokens, without the one that stands for the end. -/
  tokens : List Token
  /-- The error behind the last token. -/
  fault : Option Error
deriving DecidableEq, Repr

namespace Cursor

/-- The front of a text. -/
def ofText (text : String) : Cursor := ⟨text.toList, .start⟩

/-- The cursor behind the gap that it stands in front of. -/
def skipGap (cursor : Cursor) : Cursor :=
  let gap := splitGap .blank cursor.rest
  ⟨gap.2, cursor.position.after gap.1⟩

/-- The next token or what is wrong there, and the cursor behind it. After an error, reading can go
    on. -/
def next (cursor : Cursor) : Except Error Token × Cursor :=
  let start := cursor.skipGap
  let lexeme := readLexeme start.rest
  let stop : Cursor := ⟨lexeme.rest, start.position.after lexeme.spelling⟩
  match lexeme.reading with
  | .ok (kind, text) => (.ok ⟨kind, text, start.position⟩, stop)
  | .error fault => (.error (.lexical (fault.position start.position stop.position) fault), stop)

/-- A token other than the end of the input uses up characters. -/
theorem length_rest_next_lt {cursor stop : Cursor} {token : Token}
    (read : cursor.next = (.ok token, stop)) (more : token.kind ≠ .endOfInput) :
    stop.rest.length < cursor.rest.length := by
  have gap := length_splitGap_le .blank cursor.rest
  simp only [next] at read
  split at read
  · next kind text reading =>
    simp only [Prod.mk.injEq, Except.ok.injEq] at read
    obtain ⟨rfl, rfl⟩ := read
    exact Nat.lt_of_lt_of_le (length_rest_lt reading more) gap
  · simp at read

/-- The tokens from the cursor on. -/
def tokens (cursor : Cursor) : TokenStream :=
  match read : cursor.next with
  | (.error fault, _) => ⟨[], some fault⟩
  | (.ok token, stop) =>
    if ended : token.kind = .endOfInput then ⟨[], none⟩
    else
      have := length_rest_next_lt read ended
      let following := stop.tokens
      ⟨token :: following.tokens, following.fault⟩
termination_by cursor.rest.length

/-- One step of reading all tokens: there is an error, or the end of the input, or a token with
    further ones behind it. -/
theorem tokens_eq (cursor : Cursor) :
    cursor.tokens =
      match cursor.next with
      | (.error fault, _) => ⟨[], some fault⟩
      | (.ok token, stop) =>
        if token.kind = .endOfInput then ⟨[], none⟩
        else ⟨token :: stop.tokens.tokens, stop.tokens.fault⟩ := by
  fun_cases tokens cursor
  case case1 read => simp [read]
  case case2 read ended => simp [read, ended]
  case case3 read more _ following => simp [read, more, following]

end Cursor

end Schematic.Netlist
