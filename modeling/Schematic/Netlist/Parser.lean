import Schematic.Netlist.Entry
import Schematic.Netlist.Lexer

namespace Schematic

/-!
# Parsing netlists

A netlist is read line by line: each line of tokens is blank or one entry.

* `Netlist.splitLines` — the tokens of each line;
* `Netlist.parseLine`, `Netlist.parseLines` — the entries of a line and of all;
* `Netlist.ofEntries` — the netlist of some entries;
* `Netlist.parse` — the netlist that a text declares;
* `Netlist.ofFile` — the same for the bytes of a file.
-/

namespace Netlist

open Text

/-- The tokens of each line. There is one more line than there are newlines. -/
def splitLines : List Token → List (List Token)
  | [] => [[]]
  | token :: tokens =>
    if token.kind = .newline then [] :: splitLines tokens
    else
      match splitLines tokens with
      | [] => [[token]]
      | line :: lines => (token :: line) :: lines

/-- The entry of a line whose tokens end in a fault, if there is one. The fault is reported before
    anything that is wrong with the line, except a first token that begins no entry. -/
def parseLine (fault : Option Error) (tokens : List Token) : Except Error (Option Entry) :=
  match tokens, fault with
  | [], none => .ok none
  | [], some error => .error error
  | head :: arguments, none => (Entry.read head arguments).map some
  | head :: _, some error =>
    if Entry.canBegin head.kind then .error error else head.refuse (.misplacedToken head.text)

/-- The entries of all lines, where a fault can end the last one. -/
def parseLines (fault : Option Error) : List (List Token) → Except Error (List Entry)
  | [] => .ok []
  | [line] => do return (← parseLine fault line).toList
  | line :: lines => do
    let entry ← parseLine none line
    let entries ← parseLines fault lines
    return entry.toList ++ entries

/-- The netlist of the given entries, in which the last name for the design counts. -/
def ofEntries (entries : List Entry) : Netlist where
  name := (entries.filterMap Entry.name?).getLast?
  types := entries.filterMap Entry.type?
  nodes := entries.filterMap Entry.node?
  connections := entries.filterMap Entry.connection?

/-- The netlist that a text declares. -/
def parse (text : String) : Except Error Netlist :=
  let stream := (Cursor.ofText text).tokens
  (parseLines stream.fault (splitLines stream.tokens)).map ofEntries

/-- The netlist that a file declares, from what reading the file gave. -/
def ofFile (path : String) (contents : Except FileFault ByteArray) : Except Error Netlist :=
  match contents with
  | .error fault => .error (.unreadableFile path fault)
  | .ok bytes =>
    match String.fromUTF8? bytes with
    | none => .error (.unreadableFile path .notText)
    | some text => parse text

end Netlist

end Schematic
