import Schematic.Proofs.Words

namespace Schematic

open Netlist Text

/-!
# The round trip of written netlists

A netlist that can be written is read back, with the numbers of the lines it has been written on.

* `Netlist.isWritable` — the netlists that can be written;
* `Netlist.numbered` — a netlist with the numbers of its lines in the written form;
* `Entry.words`, `Entry.onLine` — a line of the written form, and what it declares;
* `Writes`, `writes_words` — a line is read back;
* `readEntries_writeLines` — any number of lines, in any order, is read back;
* `parse_render` — a netlist is read back.

The written form of a netlist is a sequence of lines of words, and reading goes the other way in the
same units. A word is read back as one token, a line as one entry, and a text as its lines one after
the other. For each word it is known from the lexer what token it means; for each form of line it
remains to evaluate the reader on the tokens of these meanings, whatever their columns are. The
numbers of lines come in at the end: an entry is read under the number of its line, and these are
counted from one.

What cannot be written is ruled out by `Netlist.isWritable`: names that are no identifiers, operands
that would be read as truth values, vectors without a wire, and declarations that lack a part which
their form asks for.
-/

namespace Netlist

/-! ### What can be written -/

/-- An operand that can be written. The words for truth values do not name nodes. -/
def Operand.isWritable : Operand → Bool
  | .constant _ => true
  | .node name => isName name && name ≠ "true" && name ≠ "false"

/-- A type that can be written. No vector is without a wire. -/
def TypeDecl.isWritable (decl : TypeDecl) : Bool :=
  isName decl.name && decl.shape ≠ .vector 0

/-- A node that can be written. Ports and signals can be without a name, expressions are without a
    type. -/
def NodeDecl.isWritable (decl : NodeDecl) : Bool :=
  match decl.form with
  | .port _ | .signal => decl.name.all isName && decl.typeName.any isName
  | .parameter _ => decl.name.any isName && decl.typeName.any isName
  | .expression _ lhs rhs =>
    decl.name.any isName && decl.typeName.isNone && lhs.isWritable && rhs.isWritable

/-- A connection that can be written. -/
def Connection.isWritable (connection : Connection) : Bool :=
  isName connection.destination && connection.source.isWritable

/-- An entry that can be written. -/
def Entry.isWritable : Entry → Bool
  | .name text => isName text
  | .type decl => decl.isWritable
  | .node decl => decl.isWritable
  | .connection made => made.isWritable

end Netlist

/-- A netlist that can be written. -/
def Netlist.isWritable (netlist : Netlist) : Bool :=
  netlist.name.all isName && netlist.types.all TypeDecl.isWritable &&
    netlist.nodes.all NodeDecl.isWritable && netlist.connections.all Connection.isWritable

/-- The netlist with the numbers of the lines that it is written on: first the name, if there is
    one, then the types, the nodes and the connections. -/
def Netlist.numbered (netlist : Netlist) : Netlist :=
  let types := netlist.name.toList.length + 1
  let nodes := types + netlist.types.length
  let connections := nodes + netlist.nodes.length
  { name := netlist.name
    types := (netlist.types.zipIdx types).map fun (decl, line) => { decl with line }
    nodes := (netlist.nodes.zipIdx nodes).map fun (decl, line) => { decl with line }
    connections :=
      (netlist.connections.zipIdx connections).map fun (made, line) => { made with line } }

namespace Netlist

/-! ### Lines -/

namespace Entry

/-- The words of a line. -/
def words : Entry → List String
  | .name text => [Form.graph.keyword, text]
  | .type decl => decl.words
  | .node decl => decl.words
  | .connection made => made.words

/-- The entry, on the line with the given number. -/
def onLine (line : Nat) : Entry → Entry
  | .name text => .name text
  | .type decl => .type { decl with line }
  | .node decl => .node { decl with line }
  | .connection made => .connection { made with line }

/-- An entry on a line, moved further down, is the entry on the line further down. -/
theorem onLine_shift (entry : Entry) (line n : Nat) :
    (entry.onLine line).shift n = entry.onLine (line + n) := by
  cases entry <;> rfl

end Entry

/-- The words of a line are read as the entry. -/
def Writes (words : List String) (entry : Entry) : Prop :=
  ∃ meanings, List.Forall₂ Means words meanings ∧ ∀ line tokens,
    List.Forall₂ (Token.Carries line) tokens meanings →
      parseLine none tokens = .ok (some (entry.onLine line))

/-! ### Arguments -/

/-- The token for a constant. -/
def constantToken : Constant → TokenKind × String
  | .bool value => (.identifier, if value then "true" else "false")
  | .int value => (.number, toString value.toInt)
  | .string value => (.string, value)

/-- The token for an operand. -/
def operandToken : Operand → TokenKind × String
  | .constant value => constantToken value
  | .node name => (.identifier, name)

/-- A name is read as an identifier with this text. -/
theorem means_name {name : String} (h : isName name = true) : Means name (.identifier, name) :=
  spells_name h

/-- The written form of a constant is read as the token for it: a word, a numeral or a string in
    quotes. -/
theorem means_constant (value : Constant) : Means (writeConstant value) (constantToken value) := by
  cases value with
  | bool value => cases value <;> exact spells_name (by decide +kernel)
  | int value => exact spells_integer value.toInt
  | string value => exact spells_string value

/-- The written form of an operand is read as the token for it. -/
theorem means_operand {operand : Operand} (h : operand.isWritable = true) :
    Means operand.word (operandToken operand) := by
  cases operand with
  | constant value => exact means_constant value
  | node name =>
    simp only [Operand.isWritable, Bool.and_eq_true] at h
    exact spells_name h.1.1

/-- The keyword of a form, as the token that announces it. -/
def Form.token (form : Form) : TokenKind × String :=
  (match form with | .graph | .type => .directive | _ => .identifier, form.keyword)

/-- The keyword of a form is read as the token that announces the form. -/
theorem means_keyword (form : Form) : Means form.keyword form.token := by
  cases form
  case graph =>
    exact spells_directive "graph".toList (by decide) (List.all_eq_true.mp (by decide +kernel))
  case type =>
    exact spells_directive "type".toList (by decide) (List.all_eq_true.mp (by decide +kernel))
  all_goals exact spells_name (by decide +kernel)

/-- The keywords are written in small letters. -/
theorem lowercase_keyword (form : Form) : lowercase form.keyword = form.keyword := by
  cases form <;> decide +kernel

namespace Token.Carries

variable {line : Nat} {token : Token}

/-- The token for the keyword of a form announces this form. -/
theorem form {form : Form} (h : token.Carries line form.token) : Entry.form token = .ok form := by
  have kind := h.kind
  have text : token.text = form.keyword := h.text
  cases form <;> simp only [Entry.form, kind, text, lowercase_keyword, Form.token] <;> rfl

/-- The token for a name names it. -/
theorem identifier {name : String} (h : token.Carries line (.identifier, name)) :
    token.identifier = .ok name := by
  rw [Token.identifier, if_pos h.kind, h.text]

/-- The token for a constant stands for it: the numeral of an integer for the integer, and the
    string of a text for the text. -/
theorem constant {value : Constant} (h : token.Carries line (constantToken value)) :
    token.constant = .ok value := by
  have kind := h.kind
  have text := h.text
  cases value with
  | bool value => cases value <;> simp_all [constantToken, Token.constant]
  | int value => simp only [Token.constant, kind, text, constantToken, readInt64?_toString]
  | string value => simp only [Token.constant, kind, text, constantToken]

/-- The token for an operand stands for it, unless it is a name that is read as a truth value. -/
theorem operand {operand : Operand} (writable : operand.isWritable = true)
    (h : token.Carries line (operandToken operand)) : token.operand = .ok operand := by
  cases operand with
  | constant value => rw [Token.operand, constant h]
  | node name =>
    -- A constant is tried first, and the only identifiers among them are the two truth values.
    simp only [Operand.isWritable, Bool.and_eq_true, decide_eq_true_eq] at writable
    have kind : token.kind = .identifier := h.kind
    have text : token.text = name := h.text
    simp [Token.operand, Token.constant, Token.refuse, kind, text, writable, identifier h,
      Except.map]

end Token.Carries

/-! ### Statements -/

/-- A keyword and its arguments, which the form of the line takes. -/
theorem Writes.of_form {form : Form} {arguments : List String}
    {meanings : List (TokenKind × String)} {entry : Entry}
    (means : List.Forall₂ Means arguments meanings)
    (read : ∀ line tokens, List.Forall₂ (Token.Carries line) tokens meanings →
      form.read line tokens = .ok (entry.onLine line)) :
    Writes (form.keyword :: arguments) entry := by
  refine ⟨form.token :: meanings, .cons (means_keyword form) means, ?_⟩
  rintro line _ (_ | ⟨keyword, carried⟩)
  rw [parseLine, Entry.read, keyword.form, keyword.line]
  simp only [bind, Except.bind, read _ _ carried, Except.map]

/-- The line of a name is read back. -/
theorem writes_name {text : String} (h : isName text = true) :
    Writes [Form.graph.keyword, text] (.name text) := by
  refine .of_form (.cons (means_name h) .nil) ?_
  rintro line _ (_ | ⟨name, ⟨⟩⟩)
  rw [Form.read, Form.readGraph, name.identifier]
  rfl

/-- A type whose shape is a single word is read back. The word for a vector is the only one that
    asks for a width behind it. -/
theorem writes_plain_type {name keyword : String} {shape : Shape} (line : Nat)
    (hname : isName name = true) (hkeyword : isName keyword = true)
    (hshape : Shape.ofKeyword? keyword = some shape) :
    Writes [Form.type.keyword, name, keyword] (.type ⟨name, shape, line⟩) := by
  refine .of_form (.cons (means_name hname) (.cons (means_name hkeyword) .nil)) ?_
  rintro line _ (_ | ⟨name, _ | ⟨kind, ⟨⟩⟩⟩)
  rw [Form.read, Form.readType, kind.text, hshape, name.identifier]
  rfl

/-- The line of a type is read back, with the width of a vector. The width is written as a numeral,
    which is not refused because a type that can be written has no width of zero. -/
theorem writes_type {decl : TypeDecl} (h : decl.isWritable = true) :
    Writes decl.words (.type decl) := by
  obtain ⟨name, shape, line⟩ := decl
  simp only [TypeDecl.isWritable, Bool.and_eq_true, decide_eq_true_eq] at h
  cases shape
  case vector width =>
    -- A vector is told by the number of its words, apart from the shapes of a single word.
    have positive : width ≠ 0 := by simpa using h.2
    have word : "vector".toLower = "vector" := by decide +kernel
    have means : Means (toString width.toNat) (.number, toString width.toNat) :=
      spells_integer width.toNat
    refine .of_form (.cons (means_name h.1) (.cons (means_name (by decide +kernel))
      (.cons means .nil))) ?_
    rintro line _ (_ | ⟨name, _ | ⟨kind, _ | ⟨numeral, ⟨⟩⟩⟩⟩)
    rw [Form.read, Form.readType, kind.text, if_pos word, numeral.text,
      readWidth?_toString positive, name.identifier]
    rfl
  all_goals exact writes_plain_type line h.1 (by decide +kernel) (by decide +kernel)

/-- The line of a connection is read back. A source that is a constant is written as one, and is not
    taken for a name. -/
theorem writes_connection {connection : Connection} (h : connection.isWritable = true) :
    Writes connection.words (.connection connection) := by
  rw [Connection.isWritable, Bool.and_eq_true] at h
  refine .of_form (.cons (means_name h.1) (.cons (means_operand h.2) .nil)) ?_
  rintro line _ (_ | ⟨destination, _ | ⟨source, ⟨⟩⟩⟩)
  rw [Form.read, Form.readConnect, destination.identifier, source.operand h.2]
  rfl

/-- The line of a port is read back, with a name or without. The word for the direction is the last
    one but one in both cases. -/
theorem writes_port {name : Option String} {direction : Direction} {typeName : String} (line : Nat)
    (hname : name.all isName = true) (htype : isName typeName = true) :
    Writes (Form.port.keyword :: name.toList ++ [direction.keyword, typeName])
      (.node ⟨name, .port direction, typeName, line⟩) := by
  have means : Means direction.keyword (.identifier, direction.keyword) :=
    means_name (by cases direction <;> decide +kernel)
  -- With a name or without, the reader comes down to the last two words.
  have read {line : Nat} {word type : Token} (name : Option String)
      (hword : word.Carries line (.identifier, direction.keyword))
      (htype : type.Carries line (.identifier, typeName)) :
      Form.readPortOf line name word type =
        .ok (.node ⟨name, .port direction, typeName, line⟩) := by
    rw [Form.readPortOf, hword.text, Direction.ofKeyword?_keyword, htype.identifier]
    rfl
  cases name with
  | none =>
    refine .of_form (.cons means (.cons (means_name htype) .nil)) ?_
    rintro line _ (_ | ⟨word, _ | ⟨type, ⟨⟩⟩⟩)
    exact read none word type
  | some name =>
    refine .of_form (.cons (means_name hname) (.cons means (.cons (means_name htype) .nil))) ?_
    rintro line _ (_ | ⟨label, _ | ⟨word, _ | ⟨type, ⟨⟩⟩⟩⟩)
    rw [Form.read, Form.readPort, label.identifier]
    exact read name word type

/-- The line of a signal is read back, with a name or without. The number of words tells the two
    apart, and the type is always the last of them. -/
theorem writes_signal {name : Option String} {typeName : String} (line : Nat)
    (hname : name.all isName = true) (htype : isName typeName = true) :
    Writes (Form.signal.keyword :: name.toList ++ [typeName])
      (.node ⟨name, .signal, typeName, line⟩) := by
  cases name with
  | none =>
    refine .of_form (.cons (means_name htype) .nil) ?_
    rintro line _ (_ | ⟨type, ⟨⟩⟩)
    rw [Form.read, Form.readSignal, type.identifier]
    rfl
  | some name =>
    refine .of_form (.cons (means_name hname) (.cons (means_name htype) .nil)) ?_
    rintro line _ (_ | ⟨label, _ | ⟨type, ⟨⟩⟩⟩)
    rw [Form.read, Form.readSignal, label.identifier, type.identifier]
    rfl

/-- The line of a parameter is read back, with a default or without. The default is written as a
    constant, which is read as the same constant. -/
theorem writes_param {name typeName : String} (default : Option Constant) (line : Nat)
    (hname : isName name = true) (htype : isName typeName = true) :
    Writes (Form.param.keyword :: name :: typeName :: (default.map writeConstant).toList)
      (.node ⟨name, .parameter default, typeName, line⟩) := by
  have read {line : Nat} {label type : Token} (default : Option Constant)
      (hlabel : label.Carries line (.identifier, name))
      (htype : type.Carries line (.identifier, typeName)) :
      Form.readParamOf line label type default =
        .ok (.node ⟨name, .parameter default, typeName, line⟩) := by
    rw [Form.readParamOf, hlabel.identifier, htype.identifier]
    rfl
  cases default with
  | none =>
    refine .of_form (.cons (means_name hname) (.cons (means_name htype) .nil)) ?_
    rintro line _ (_ | ⟨label, _ | ⟨type, ⟨⟩⟩⟩)
    exact read none label type
  | some value =>
    refine .of_form (.cons (means_name hname) (.cons (means_name htype)
      (.cons (means_constant value) .nil))) ?_
    rintro line _ (_ | ⟨label, _ | ⟨type, _ | ⟨constant, ⟨⟩⟩⟩⟩)
    rw [Form.read, Form.readParam, constant.constant]
    exact read (some value) label type

/-- The line of an expression is read back, with its operator and both operands. -/
theorem writes_expr {name : String} {op : Operator} {lhs rhs : Operand} (line : Nat)
    (hname : isName name = true) (hlhs : lhs.isWritable = true) (hrhs : rhs.isWritable = true) :
    Writes [Form.expr.keyword, name, op.word, lhs.word, rhs.word]
      (.node ⟨name, .expression op lhs rhs, none, line⟩) := by
  have means : Means op.word (.identifier, op.word) := means_name (by cases op <;> decide +kernel)
  refine .of_form (.cons (means_name hname) (.cons means (.cons (means_operand hlhs)
    (.cons (means_operand hrhs) .nil)))) ?_
  rintro line _ (_ | ⟨label, _ | ⟨word, _ | ⟨left, _ | ⟨right, ⟨⟩⟩⟩⟩⟩)
  rw [Form.read, Form.readExpr, word.text, Operator.ofKeyword?_word, label.identifier,
    left.operand hlhs, right.operand hrhs]
  rfl

/-- The line of a declaration that can be written is read back, whatever its form is, with the parts
    that this form has. -/
theorem writes_node {decl : NodeDecl} (h : decl.isWritable = true) :
    Writes decl.words (.node decl) := by
  obtain ⟨name, form, typeName, line⟩ := decl
  simp only [NodeDecl.isWritable] at h
  -- The condition on a declaration depends on its form, and gives each reader the words that it
  -- needs.
  cases form with
  | port direction =>
    rw [Bool.and_eq_true, Option.any_eq_true] at h
    obtain ⟨hname, typeName, rfl, htype⟩ := h
    exact writes_port line hname htype
  | signal =>
    rw [Bool.and_eq_true, Option.any_eq_true] at h
    obtain ⟨hname, typeName, rfl, htype⟩ := h
    exact writes_signal line hname htype
  | parameter default =>
    rw [Bool.and_eq_true, Option.any_eq_true, Option.any_eq_true] at h
    obtain ⟨⟨name, rfl, hname⟩, typeName, rfl, htype⟩ := h
    exact writes_param default line hname htype
  | expression op lhs rhs =>
    simp only [Bool.and_eq_true, Option.any_eq_true, Option.isNone_iff_eq_none] at h
    obtain ⟨⟨⟨⟨name, rfl, hname⟩, rfl⟩, hlhs⟩, hrhs⟩ := h
    exact writes_expr line hname hlhs hrhs

/-- Every line that can be written is read back. -/
theorem writes_words {entry : Entry} (h : entry.isWritable = true) : Writes entry.words entry := by
  cases entry with
  | name text => exact writes_name h
  | type decl => exact writes_type h
  | node decl => exact writes_node h
  | connection made => exact writes_connection h

/-! ### Whole texts -/

/-- The text of some lines, with a newline behind each. -/
def writeLines (entries : List Entry) : String :=
  String.join (entries.map fun entry => " ".intercalate entry.words ++ "\n")

/-- Lines that can be written are read back, each under its number. The numbers do not have to be
    those that the entries have had before. -/
theorem readEntries_writeLines {entries : List Entry}
    (h : ∀ entry ∈ entries, entry.isWritable = true) :
    readEntries (.ofText (writeLines entries)) =
      .ok ((entries.zipIdx 1).map fun (entry, line) => entry.onLine line) := by
  induction entries with
  | nil => decide +kernel
  | cons entry entries ih =>
    obtain ⟨meanings, means, read⟩ := writes_words (h entry (by simp))
    have first := readEntries_of_words means (read 1)
    have rest := ih fun other hother => h other (List.mem_cons_of_mem _ hother)
    have text : writeLines (entry :: entries) =
        " ".intercalate entry.words ++ "\n" ++ writeLines entries := by
      simp [writeLines]
    -- The lines behind the first one move down by one.
    rw [text, readEntries_append_newline first, newlines_intercalate means, rest]
    simp [List.zipIdx_succ, Except.map, Entry.onLine_shift]

/-- The lines of a netlist in the order in which they are written. -/
def entries (netlist : Netlist) : List Entry :=
  (netlist.name.map .name).toList ++ netlist.types.map .type ++ netlist.nodes.map .node ++
    netlist.connections.map .connection

/-- A netlist is written as its entries, line by line: the name, the types, the nodes and the
    connections. -/
theorem render_eq (netlist : Netlist) : netlist.render = writeLines netlist.entries := by
  have statements : netlist.statements = netlist.entries.map Entry.words := by
    cases h : netlist.name <;> simp [Netlist.statements, entries, h, Function.comp_def, Entry.words]
  simp [Netlist.render, writeLines, statements, Function.comp_def]

/-- Of a netlist that can be written, every line can be. -/
theorem isWritable_of_mem_entries {netlist : Netlist} {entry : Entry}
    (h : netlist.isWritable = true) (mem : entry ∈ netlist.entries) : entry.isWritable = true := by
  simp only [Netlist.isWritable, Bool.and_eq_true, List.all_eq_true, Option.all_eq_true] at h
  obtain ⟨⟨⟨name, types⟩, nodes⟩, connections⟩ := h
  simp only [entries, List.mem_append, Option.mem_toList, Option.map_eq_some_iff,
    List.mem_map] at mem
  rcases mem with ((⟨text, given, rfl⟩ | ⟨decl, mem, rfl⟩) | ⟨decl, mem, rfl⟩) | ⟨made, mem, rfl⟩
  · exact name text given
  · exact types decl mem
  · exact nodes decl mem
  · exact connections made mem

/-- The entries of a netlist on their lines are collected into the netlist with the numbers of its
    lines. -/
theorem ofEntries_onLine (netlist : Netlist) :
    ofEntries ((netlist.entries.zipIdx 1).map fun (entry, line) => entry.onLine line) =
      netlist.numbered := by
  obtain ⟨name, types, nodes, connections⟩ := netlist
  cases name <;>
    simp [ofEntries, entries, Netlist.numbered, List.zipIdx_append, List.zipIdx_map,
      List.filterMap_map, List.filterMap_cons, Function.comp_def, Entry.onLine, Entry.name?,
      Entry.type?, Entry.node?, Entry.connection?]

/-- Every netlist that can be written is read back, under the numbers of its lines. -/
theorem parse_render {netlist : Netlist} (h : netlist.isWritable = true) :
    parse netlist.render = .ok netlist.numbered := by
  rw [parse_eq, render_eq, readEntries_writeLines fun _ => isWritable_of_mem_entries h, Except.map,
    ofEntries_onLine]

/-- A netlist whose written form has every kind of line, with names that are keywords, an integer at
    the end of its range and a string full of escapes. -/
theorem parse_render_of_keywords :
    parse (Netlist.render
      { name := some "graph"
        types := [⟨"vector", .vector 4294967295, 0⟩]
        nodes := [⟨some "port", .signal, some "port", 0⟩, ⟨none, .port .input, some "bit", 0⟩,
          ⟨some "in", .port .unspecified, some "out", 0⟩,
          ⟨some "param", .parameter (some (.string "\"\\\n\t;#")), some "string", 0⟩,
          ⟨some "e", .expression .sub (.constant (.int Int64.minValue)) (.node "True"), none, 0⟩]
        connections := [⟨"port", .constant (.bool false), 0⟩] }) = .ok
      { name := some "graph"
        types := [⟨"vector", .vector 4294967295, 2⟩]
        nodes := [⟨some "port", .signal, some "port", 3⟩, ⟨none, .port .input, some "bit", 4⟩,
          ⟨some "in", .port .unspecified, some "out", 5⟩,
          ⟨some "param", .parameter (some (.string "\"\\\n\t;#")), some "string", 6⟩,
          ⟨some "e", .expression .sub (.constant (.int Int64.minValue)) (.node "True"), none, 7⟩]
        connections := [⟨"port", .constant (.bool false), 8⟩] } :=
  parse_render (by decide +kernel)

end Netlist

end Schematic
