import Schematic.Netlist.Form
import Schematic.Text.Position
import Schematic.Text.Quoted

namespace Schematic.Netlist

open Text

/-!
# Faults in the text of a netlist

* `LexicalFault` — a fault in its characters, with the place where it is reported;
* `GrammarFault` — a fault in a line of tokens, or in a declaration;
* `LexicalFault.message`, `GrammarFault.message` — the wording.
-/

/-- What is wrong with the characters at some place of a netlist. -/
inductive LexicalFault where
  /-- A dot without a name behind it. -/
  | emptyDirective
  /-- A string that its line does not close. -/
  | unterminatedString
  /-- A backslash before a character that it cannot stand before. -/
  | unknownEscape (c : Char)
  /-- A sign without a digit behind it. -/
  | missingDigits (sign : Char)
  /-- A character that starts no token. -/
  | unexpectedCharacter (c : Char)
deriving DecidableEq, Repr

/-- The place where a fault is reported that lies between `start` and `stop`: behind it for an
    escape, which may reach into the next line, and at its first character for anything else. -/
def LexicalFault.position (fault : LexicalFault) (start stop : Position) : Position :=
  match fault with
  | .unknownEscape _ => stop
  | _ => start

/-- The wording of a lexical fault. -/
def LexicalFault.message : LexicalFault → String
  | .emptyDirective => "empty directive"
  | .unterminatedString => "unterminated string"
  | .unknownEscape c => "unknown escape '\\" ++ c.toString ++ "'"
  | .missingDigits sign => "expected digits after '" ++ sign.toString ++ "'"
  | .unexpectedCharacter c => "unexpected character '" ++ c.toString ++ "'"

/-- What is wrong with a line of tokens, or with a declaration that no line could write. -/
inductive GrammarFault where
  /-- A line that begins with a number or a string. -/
  | misplacedToken (text : String)
  /-- A line with too few or too many arguments for its form. -/
  | malformed (form : Form)
  | unknownDirective (text : String)
  | unknownStatement (keyword : String)
  | unknownTypeKind (text : String)
  | invalidWidth (text : String)
  | unknownDirection (text : String)
  | unknownOperator (text : String)
  | expectedIdentifier (text : String)
  | expectedConstant (text : String)
  /-- A number outside the range of 64-bit integers. -/
  | invalidInteger (text : String)
  /-- A parameter or an expression without a name. -/
  | unnamed (form : Form)
deriving DecidableEq, Repr

/-- The wording of a grammar fault. -/
def GrammarFault.message : GrammarFault → String
  | .misplacedToken text => "unexpected token: " ++ quoted text
  | .malformed form => "expected '" ++ form.usage ++ "'"
  | .unknownDirective text => "unknown directive: " ++ text
  | .unknownStatement keyword => "unknown statement: " ++ keyword
  | .unknownTypeKind text => "unknown type kind: " ++ text
  | .invalidWidth text => "invalid vector width: " ++ text
  | .unknownDirection text => "unknown direction: " ++ text
  | .unknownOperator text => "unknown operator: " ++ text
  | .expectedIdentifier text => "expected identifier, got " ++ quoted text
  | .expectedConstant text => "expected constant, got " ++ quoted text
  | .invalidInteger text => "invalid integer: " ++ text
  | .unnamed form => "'" ++ form.keyword ++ "' declaration needs a name"

end Schematic.Netlist
