import Schematic.Proofs.LineByLine
import Schematic.Proofs.Sequences

namespace Schematic.Netlist

/-!
# The grammar of lines

What a line has to look like, and what it declares then.

* `Token.identifier_eq_ok`, `Token.operand_of_name` — the arguments that are names;
* `Form.Production` — the productions of the grammar, a constructor for each;
* `Form.read_eq_ok` — exactly the productions are accepted;
* `Entry.read_eq_ok`, `Declares` — the same for a line with its first token, and for all lines;
* `parse_eq_ok` — the texts that are accepted, line by line.

The readers of the forms go through the arguments with checks in a certain order. For a line that is
accepted the order is of no matter, and neither are the messages: what counts is which arguments
there are and that each is what it has to be. This is what a production says, one for each number of
arguments that a form can have. Both directions go by cases, on the production in the one and on the
arguments in the other, and later modules argue by cases on productions and never open a reader.
-/

/-! ### Arguments -/

/-- A token names something exactly if it is an identifier, and then it names its text. -/
theorem Token.identifier_eq_ok {token : Token} {name : String} :
    token.identifier = .ok name ↔ token.kind = .identifier ∧ token.text = name := by
  by_cases h : token.kind = .identifier <;> simp [identifier, refuse, h]

/-- The token names a node where constants can stand: it is an identifier, and none of the two that
    are truth values. -/
structure Token.NamesNode (token : Token) (name : String) : Prop where
  kind : token.kind = .identifier
  text : token.text = name
  ne_true : name ≠ "true"
  ne_false : name ≠ "false"

/-- A token that names a node is an operand for this node. -/
theorem Token.operand_of_name {token : Token} {name : String} (h : token.NamesNode name) :
    token.operand = .ok (.node name) := by
  obtain ⟨hkind, rfl, htrue, hfalse⟩ := h
  simp [operand, constant, identifier, refuse, Except.map, hkind, htrue, hfalse]

/-- A value that may be missing is accepted exactly if it is there. -/
theorem orFault_eq_ok {α : Type} {line : Nat} {fault : GrammarFault} {found : Option α}
    {value : α} : orFault line fault found = .ok value ↔ found = some value := by
  cases found <;> simp [orFault]

/-! ### Lines -/

/-- The productions of the grammar: the arguments that a line of a form can have, and what it
    declares with them. -/
inductive Form.Production (line : Nat) : Form → List Token → Entry → Prop
  | graph {name : Token} {text : String} (hname : name.identifier = .ok text) :
      Production line .graph [name] (.name text)
  | type {name kind : Token} {text : String} {shape : Shape} (hname : name.identifier = .ok text)
      (hkind : Shape.ofKeyword? kind.text = some shape) :
      Production line .type [name, kind] (.type ⟨text, shape, line⟩)
  | vector {name kind numeral : Token} {text : String} {width : UInt32}
      (hname : name.identifier = .ok text) (hkind : kind.text.toLower = "vector")
      (hwidth : readWidth? numeral.text = some width) :
      Production line .type [name, kind, numeral] (.type ⟨text, .vector width, line⟩)
  | port {word typeName : Token} {direction : Direction} {type : String}
      (hdirection : Direction.ofKeyword? word.text = some direction)
      (htype : typeName.identifier = .ok type) :
      Production line .port [word, typeName] (.node ⟨none, .port direction, type, line⟩)
  | namedPort {name word typeName : Token} {text : String} {direction : Direction} {type : String}
      (hname : name.identifier = .ok text)
      (hdirection : Direction.ofKeyword? word.text = some direction)
      (htype : typeName.identifier = .ok type) :
      Production line .port [name, word, typeName] (.node ⟨text, .port direction, type, line⟩)
  | signal {typeName : Token} {type : String} (htype : typeName.identifier = .ok type) :
      Production line .signal [typeName] (.node ⟨none, .signal, type, line⟩)
  | namedSignal {name typeName : Token} {text type : String} (hname : name.identifier = .ok text)
      (htype : typeName.identifier = .ok type) :
      Production line .signal [name, typeName] (.node ⟨text, .signal, type, line⟩)
  | param {name typeName : Token} {text type : String} (hname : name.identifier = .ok text)
      (htype : typeName.identifier = .ok type) :
      Production line .param [name, typeName] (.node ⟨text, .parameter none, type, line⟩)
  | default {name typeName value : Token} {text type : String} {default : Constant}
      (hname : name.identifier = .ok text) (htype : typeName.identifier = .ok type)
      (hdefault : value.constant = .ok default) :
      Production line .param [name, typeName, value]
        (.node ⟨text, .parameter (some default), type, line⟩)
  | expr {name word left right : Token} {text : String} {op : Operator} {lhs rhs : Operand}
      (hname : name.identifier = .ok text) (hop : Operator.ofKeyword? word.text = some op)
      (hleft : left.operand = .ok lhs) (hright : right.operand = .ok rhs) :
      Production line .expr [name, word, left, right]
        (.node ⟨text, .expression op lhs rhs, none, line⟩)
  | connect {name operand : Token} {destination : String} {source : Operand}
      (hname : name.identifier = .ok destination) (hsource : operand.operand = .ok source) :
      Production line .connect [name, operand] (.connection ⟨destination, source, line⟩)

namespace Form

variable {form : Form} {line : Nat} {arguments : List Token} {entry : Entry}

/-- The part of a port behind its name. -/
theorem readPortOf_eq_ok {name : Option String} {word typeName : Token} :
    readPortOf line name word typeName = .ok entry ↔
      ∃ direction, Direction.ofKeyword? word.text = some direction ∧
        ∃ type, typeName.identifier = .ok type ∧
          entry = .node ⟨name, .port direction, type, line⟩ := by
  simp only [readPortOf, bind_eq_ok, orFault_eq_ok]
  simp [pure, Except.pure, eq_comm]

/-- The part of a parameter other than its default. -/
theorem readParamOf_eq_ok {name typeName : Token} {default : Option Constant} :
    readParamOf line name typeName default = .ok entry ↔
      ∃ text, name.identifier = .ok text ∧ ∃ type, typeName.identifier = .ok type ∧
        entry = .node ⟨text, .parameter default, type, line⟩ := by
  simp only [readParamOf, bind_eq_ok]
  simp [pure, Except.pure, eq_comm]

/-- A type with three arguments is a vector, if it is anything. -/
theorem read_vector (line : Nat) (name kind numeral : Token) :
    read .type line [name, kind, numeral] =
      if kind.text.toLower = "vector" then
        orFault line (.invalidWidth numeral.text) (readWidth? numeral.text) >>= fun width =>
          name.identifier >>= fun text => .ok (.type ⟨text, .vector width, line⟩)
      else .error (.grammar line (.malformed .type)) := rfl

/-- Every production is accepted, and declares what it says. Its conditions are the answers of the
    very checks that the reader makes. -/
theorem Production.read_eq (h : form.Production line arguments entry) :
    form.read line arguments = .ok entry := by
  -- With the arguments of a production, every check of the reader passes.
  cases h with
  | graph hname => rw [read, readGraph, hname]; rfl
  | type hname hkind => rw [read, readType, hname, hkind]; rfl
  | vector hname hkind hwidth => rw [read_vector, if_pos hkind, hname, hwidth]; rfl
  | port hdirection htype => exact readPortOf_eq_ok.mpr ⟨_, hdirection, _, htype, rfl⟩
  | namedPort hname hdirection htype =>
    rw [read, readPort, hname]
    exact readPortOf_eq_ok.mpr ⟨_, hdirection, _, htype, rfl⟩
  | signal htype => rw [read, readSignal, htype]; rfl
  | namedSignal hname htype => rw [read, readSignal, hname, htype]; rfl
  | param hname htype => exact readParamOf_eq_ok.mpr ⟨_, hname, _, htype, rfl⟩
  | default hname htype hdefault =>
    rw [read, readParam, hdefault]
    exact readParamOf_eq_ok.mpr ⟨_, hname, _, htype, rfl⟩
  | expr hname hop hleft hright => rw [read, readExpr, hname, hop, hleft, hright]; rfl
  | connect hname hsource => rw [read, readConnect, hname, hsource]; rfl

/-- What is accepted is one of the productions. Where reading succeeds, each check has succeeded,
    and the values that they have given make up the entry. -/
theorem production_of_read (h : form.read line arguments = .ok entry) :
    form.Production line arguments entry := by
  -- The number of arguments tells the productions of a form apart.
  cases form
  case graph =>
    match arguments, h with
    | [name], h =>
      obtain ⟨text, hname, ⟨⟩⟩ := bind_eq_ok.mp h
      exact .graph hname
  case type =>
    match arguments, h with
    | [name, kind], h =>
      obtain ⟨shape, hkind, h⟩ := bind_eq_ok.mp h
      obtain ⟨text, hname, ⟨⟩⟩ := bind_eq_ok.mp h
      exact .type hname (orFault_eq_ok.mp hkind)
    | [name, kind, numeral], h =>
      rw [read_vector] at h
      split at h
      case isTrue hkind =>
        obtain ⟨width, hwidth, h⟩ := bind_eq_ok.mp h
        obtain ⟨text, hname, ⟨⟩⟩ := bind_eq_ok.mp h
        exact .vector hname hkind (orFault_eq_ok.mp hwidth)
      case isFalse => exact absurd h (by simp)
  case port =>
    match arguments, h with
    | [word, typeName], h =>
      obtain ⟨direction, hdirection, type, htype, rfl⟩ := readPortOf_eq_ok.mp h
      exact .port hdirection htype
    | [name, word, typeName], h =>
      obtain ⟨text, hname, h⟩ := bind_eq_ok.mp h
      obtain ⟨direction, hdirection, type, htype, rfl⟩ := readPortOf_eq_ok.mp h
      exact .namedPort hname hdirection htype
  case signal =>
    match arguments, h with
    | [typeName], h =>
      obtain ⟨type, htype, ⟨⟩⟩ := bind_eq_ok.mp h
      exact .signal htype
    | [name, typeName], h =>
      obtain ⟨text, hname, h⟩ := bind_eq_ok.mp h
      obtain ⟨type, htype, ⟨⟩⟩ := bind_eq_ok.mp h
      exact .namedSignal hname htype
  case param =>
    match arguments, h with
    | [name, typeName], h =>
      obtain ⟨text, hname, type, htype, rfl⟩ := readParamOf_eq_ok.mp h
      exact .param hname htype
    | [name, typeName, value], h =>
      obtain ⟨default, hdefault, h⟩ := bind_eq_ok.mp h
      obtain ⟨text, hname, type, htype, rfl⟩ := readParamOf_eq_ok.mp h
      exact .default hname htype hdefault
  case expr =>
    match arguments, h with
    | [name, word, left, right], h =>
      obtain ⟨op, hop, h⟩ := bind_eq_ok.mp h
      obtain ⟨text, hname, h⟩ := bind_eq_ok.mp h
      obtain ⟨lhs, hleft, h⟩ := bind_eq_ok.mp h
      obtain ⟨rhs, hright, ⟨⟩⟩ := bind_eq_ok.mp h
      exact .expr hname (orFault_eq_ok.mp hop) hleft hright
  case connect =>
    match arguments, h with
    | [name, operand], h =>
      obtain ⟨destination, hname, h⟩ := bind_eq_ok.mp h
      obtain ⟨source, hsource, ⟨⟩⟩ := bind_eq_ok.mp h
      exact .connect hname hsource

/-- A line of a form is accepted exactly if one of the productions allows its arguments. -/
theorem read_eq_ok :
    form.read line arguments = .ok entry ↔ form.Production line arguments entry :=
  ⟨production_of_read, Production.read_eq⟩

end Form

/-! ### Texts -/

/-- A line is accepted if its first token announces a form and the rest is a production of it. -/
theorem Entry.read_eq_ok {head : Token} {arguments : List Token} {entry : Entry} :
    Entry.read head arguments = .ok entry ↔
      ∃ form, Entry.form head = .ok form ∧ form.Production head.line arguments entry := by
  simp only [Entry.read, bind_eq_ok, Form.read_eq_ok]

/-- What the lines declare, one entry for each line that is not blank. -/
inductive Declares : List (List Token) → List Entry → Prop
  | nil : Declares [] []
  | blank {lines : List (List Token)} {entries : List Entry} (h : Declares lines entries) :
      Declares ([] :: lines) entries
  | line {head : Token} {arguments : List Token} {form : Form} {entry : Entry}
      {lines : List (List Token)} {entries : List Entry} (hform : Entry.form head = .ok form)
      (hentry : form.Production head.line arguments entry) (h : Declares lines entries) :
      Declares ((head :: arguments) :: lines) (entry :: entries)

/-- A line that is not blank has been accepted by one of the productions, and its entry is among the
    entries. -/
theorem Declares.production_of_mem {lines : List (List Token)} {entries : List Entry} {head : Token}
    {arguments : List Token} (h : Declares lines entries) (hmem : head :: arguments ∈ lines) :
    ∃ form entry, Entry.form head = .ok form ∧ form.Production head.line arguments entry ∧
      entry ∈ entries := by
  induction h with
  | nil => exact absurd hmem List.not_mem_nil
  | blank _ ih => exact ih ((List.mem_cons.mp hmem).resolve_left (by simp))
  | line hform hentry _ ih =>
    rcases List.mem_cons.mp hmem with heq | hmem
    · obtain ⟨rfl, rfl⟩ := List.cons.inj heq
      exact ⟨_, _, hform, hentry, List.mem_cons_self⟩
    · obtain ⟨form, entry, hform, hentry, hmem⟩ := ih hmem
      exact ⟨form, entry, hform, hentry, List.mem_cons_of_mem _ hmem⟩

/-- Lines are accepted exactly if each of them is blank or a production, and their entries are those
    of the productions, in order. -/
theorem parseLines_eq_ok {lines : List (List Token)} {entries : List Entry} :
    parseLines none lines = .ok entries ↔ Declares lines entries := by
  constructor
  · intro h
    induction lines generalizing entries with
    | nil =>
      obtain rfl : [] = entries := Except.ok.inj h
      exact .nil
    | cons line lines ih =>
      rw [parseLines_cons (.inr rfl)] at h
      -- The first line has succeeded and so have the others, since the lines are read in order.
      obtain ⟨entry, hentry, h⟩ := bind_eq_ok.mp h
      obtain ⟨others, hothers, ⟨⟩⟩ := bind_eq_ok.mp h
      cases line with
      | nil =>
        obtain rfl : none = entry := Except.ok.inj hentry
        exact .blank (ih hothers)
      | cons head arguments =>
        obtain ⟨entry, hread, rfl⟩ := map_eq_ok.mp hentry
        obtain ⟨form, hform, hproduction⟩ := Entry.read_eq_ok.mp hread
        exact .line hform hproduction (ih hothers)
  · intro h
    induction h with
    | nil => rfl
    | blank _ ih =>
      rw [parseLines_cons (.inr rfl), ih]
      rfl
    | line hform hentry _ ih =>
      rw [parseLines_cons (.inr rfl), ih, parseLine, Entry.read_eq_ok.mpr ⟨_, hform, hentry⟩]
      rfl

/-- The tokens of each line of a text. -/
def tokenLines (text : String) : List (List Token) :=
  splitLines (Cursor.ofText text).tokens.tokens

/-- A text is accepted exactly if it has no lexical fault and each of its lines is blank or a
    production of the grammar. -/
theorem parse_eq_ok {text : String} {netlist : Netlist} :
    parse text = .ok netlist ↔ (Cursor.ofText text).tokens.fault = none ∧
      ∃ entries, Declares (tokenLines text) entries ∧ ofEntries entries = netlist := by
  rw [parse_eq, map_eq_ok, readEntries]
  cases hfault : (Cursor.ofText text).tokens.fault with
  | none => simp only [parseLines_eq_ok, tokenLines, true_and]
  | some fault =>
    have hlines := splitLines_ne_nil (Cursor.ofText text).tokens.tokens
    obtain ⟨error, herror⟩ := parseLines_fault hlines fault
    simp [herror]

end Schematic.Netlist
