import Schematic.Text.Printable

namespace Schematic.Text

/-!
# Quoted text

The form in which messages quote a piece of the input, so that every character of it can be seen.

* `quoteChar` — one character, escaped where it would not show;
* `quoted` — a text between double quotes.
-/

/-- The escape of a character by its code point, in hexadecimal. -/
def codePointEscape (c : Char) : List Char :=
  ['\\', 'u', '\x7b'] ++ Nat.toDigits 16 c.toNat ++ ['\x7d']

/-- A character inside quotes. A single quote stands for itself, a double quote does not. A mark
    that extends its predecessor appears as its code point, and so does a character that has no
    visible form or is not printable. -/
def quoteChar (c : Char) : List Char :=
  if c = '\x00' then ['\\', '0']
  else if c = '\t' then ['\\', 't']
  else if c = '\r' then ['\\', 'r']
  else if c = '\n' then ['\\', 'n']
  else if c = '\\' ∨ c = '"' then ['\\', c]
  else if isExtendingMark c ∨ isDefaultIgnorable c ∨ ¬ isPrintable c then codePointEscape c
  else [c]

/-- The text between double quotes, each character as `quoteChar` gives it. -/
def quoted (text : String) : String :=
  String.ofList ('"' :: text.toList.flatMap quoteChar ++ ['"'])

end Schematic.Text
