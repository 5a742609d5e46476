import Schematic.Text.Position

namespace Schematic.Netlist

open Text

/-!
# Tokens

* `TokenKind` — the kinds of token;
* `Token` — a kind with a text and a position.
-/

/-- The kinds of token. -/
inductive TokenKind where
  /-- A keyword or a name. -/
  | identifier
  /-- A decimal integer, perhaps with a sign. -/
  | number
  /-- A text between double quotes. -/
  | string
  /-- A dot and a name. -/
  | directive
  /-- The end of a line. -/
  | newline
  /-- The end of the input. -/
  | endOfInput
deriving DecidableEq, Repr

/-- A token. The text of a string is what stands for itself or behind a backslash between the
    quotes, the text of any other token is its spelling. -/
structure Token where
  /-- The kind. -/
  kind : TokenKind
  /-- The text. -/
  text : String
  /-- The place of the first character. -/
  position : Position
deriving DecidableEq, Repr

/-- The number of the token's line. -/
def Token.line (token : Token) : Nat := token.position.line

end Schematic.Netlist
