import Schematic.Proofs.Relayout
import Schematic.Proofs.Writability

namespace Schematic.Netlist

/-!
# Lines and their numbers

Each line of a text declares at most one thing, and this carries the number of the line. So the
numbers of what is declared increase from line to line.

* `Entry.line?`, `entriesOn` — the number of what is declared, and what is declared under a number;
* `Numbered`, `Cursor.numbered_splitLines` — the tokens of a line carry the number of the line;
* `Declares.pairwise` — what is declared further down has a greater number;
* `LineDeclares`, `Declares.lineDeclares` — what a line declares is found under its number;
* `WellFormed`, `wellFormed_of_parse` — what the netlist of a text is like.

All of this rests on one fact about the lexer: the number of the line goes up behind a newline and
nowhere else. Cutting the tokens into lines drops the newlines, so that what is left of the k-th
line carries the number of that line. From there on the text is out of sight. `Declares` reads a
list of lines from the front, and each result about it is an induction with the number of the first
line as a parameter that goes up by one: what the rest of the lines declares has greater numbers
than what the first one does.

A netlist keeps its entries by kind and has lost the order in which they came. It is enough that
they are the same entries, as a permutation, since an entry is looked up by its number and no two
have the same.
-/

/-! ### Numbers of entries -/

/-- The number of the line that an entry is on. The name of the design comes without a number. -/
def Entry.line? : Entry → Option Nat
  | .name _ => none
  | .type decl => some decl.line
  | .node decl => some decl.line
  | .connection made => some made.line

/-- As far as the entries have numbers, the first is on an earlier line than the second. -/
def Entry.Precedes (first second : Entry) : Prop :=
  ∀ line, first.line? = some line → ∀ other, second.line? = some other → line < other

/-- The types, the nodes and the connections of a netlist. -/
def declarations (netlist : Netlist) : List Entry :=
  netlist.types.map .type ++ netlist.nodes.map .node ++ netlist.connections.map .connection

/-- What a netlist declares on one line. -/
def entriesOn (netlist : Netlist) (line : Nat) : List Entry :=
  netlist.declarations.filter (·.line? = some line)

/-- Only the name of a design is without a number. -/
theorem Form.Production.line?_eq {form : Form} {line : Nat} {arguments : List Token} {entry : Entry}
    (h : form.Production line arguments entry) :
    entry.line? = if form = .graph then none else some line := by
  cases h <;> rfl

/-! ### Numbers of tokens -/

/-- The tokens carry the numbers of their lines, the first of which is the given one. -/
def Numbered (first : Nat) (lines : List (List Token)) : Prop :=
  ∀ k line, lines[k]? = some line → ∀ token ∈ line, token.line = first + k

namespace Numbered

variable {first : Nat} {token : Token} {line : List Token} {lines : List (List Token)}

/-- A line without tokens has any number, so that an empty text is one line from whichever number
    on. -/
theorem singleton_nil (first : Nat) : Numbered first [[]] := by
  rintro (_ | k) line hline token hmem
  · obtain rfl := Option.some.inj hline
    exact absurd hmem List.not_mem_nil
  · exact absurd hline (by simp)

/-- A line is put in front of others, which are counted from the next number on. -/
theorem cons (hline : ∀ token ∈ line, token.line = first) (h : Numbered (first + 1) lines) :
    Numbered first (line :: lines) := by
  rintro (_ | k) other hother token hmem
  · obtain rfl := Option.some.inj hother
    exact hline token hmem
  · rw [h k other hother token hmem]
    omega

/-- The tokens of the first line have the first number. -/
theorem head (h : Numbered first (line :: lines)) : ∀ token ∈ line, token.line = first :=
  h 0 line rfl

/-- Without their first line, the lines are counted from the next number on. -/
theorem tail (h : Numbered first (line :: lines)) : Numbered (first + 1) lines := by
  intro k other hother token hmem
  rw [h (k + 1) other hother token hmem]
  omega

end Numbered

/-- A token that ends a line is the only one after which the number of the line is another. -/
theorem Cursor.numbered_splitLines (cursor : Cursor) :
    Numbered cursor.position.line (splitLines cursor.tokens.tokens) := by
  -- The induction is on the tokens. The number of the next token says whether the line goes on.
  fun_induction Cursor.tokens cursor with
  | case1 | case2 => exact .singleton_nil _
  | case3 cursor token stop read _ _ following ih =>
    obtain ⟨hhere, hnext⟩ := line_of_next read
    rw [splitLines]
    split
    case isTrue ended =>
      rw [hnext, if_pos ended] at ih
      exact .cons (fun _ hmem => absurd hmem List.not_mem_nil) ih
    case isFalse inside =>
      rw [hnext, if_neg inside, Nat.add_zero] at ih
      split
      case h_1 hnone => exact absurd hnone (splitLines_ne_nil _)
      case h_2 line lines hsome =>
        rw [hsome] at ih
        exact .cons (List.forall_mem_cons.mpr ⟨hhere, ih.head⟩) ih.tail

/-- The lines of a text are counted from one, as the cursor of a text is. -/
theorem numbered_tokenLines (text : String) : Numbered 1 (tokenLines text) :=
  Cursor.numbered_splitLines (.ofText text)

/-! ### From line to line -/

section Lines

variable {first line : Nat} {lines : List (List Token)} {entries : List Entry} {entry : Entry}

/-- What a line declares has its number, which it takes from the first token of the line. -/
theorem Form.Production.line_of_numbered {form : Form} {head : Token} {arguments : List Token}
    (h : form.Production head.line arguments entry)
    (hnumbered : Numbered first ((head :: arguments) :: lines)) (hline : entry.line? = some line) :
    line = first := by
  rw [h.line?_eq] at hline
  split at hline
  · exact absurd hline (by simp)
  · rw [← Option.some.inj hline, hnumbered.head head List.mem_cons_self]

/-- What is declared by lines that are counted from some number on is not found under a smaller
    one. -/
theorem Declares.le_line (h : Declares lines entries) (hnumbered : Numbered first lines)
    (hmem : entry ∈ entries) (hline : entry.line? = some line) : first ≤ line := by
  induction h generalizing first with
  | nil => exact absurd hmem List.not_mem_nil
  | blank _ ih => exact Nat.le_of_succ_le (ih hnumbered.tail hmem)
  | line _ hentry _ ih =>
    rcases List.mem_cons.mp hmem with rfl | hmem
    · exact Nat.le_of_eq (hentry.line_of_numbered hnumbered hline).symm
    · exact Nat.le_of_succ_le (ih hnumbered.tail hmem)

/-- What is declared further down has a greater number. Each line is compared with all lines behind
    it at once. -/
theorem Declares.pairwise (h : Declares lines entries) (hnumbered : Numbered first lines) :
    entries.Pairwise Entry.Precedes := by
  induction h generalizing first with
  | nil => exact .nil
  | blank _ ih => exact ih hnumbered.tail
  | line _ hentry h ih =>
    refine .cons (fun later hlater line hline other hother => ?_) (ih hnumbered.tail)
    rw [hentry.line_of_numbered hnumbered hline]
    exact h.le_line hnumbered.tail hlater hother

/-- What is declared on the line of the given number by the given tokens: nothing if there are none
    or if they name the design, and otherwise the one entry that the grammar has for them. -/
inductive LineDeclares (line : Nat) : List Token → List Entry → Prop
  | blank : LineDeclares line [] []
  | graph {head : Token} {arguments : List Token} {name : String}
      (hform : Entry.form head = .ok .graph)
      (hname : Form.graph.Production line arguments (.name name)) :
      LineDeclares line (head :: arguments) []
  | entry {head : Token} {arguments : List Token} {form : Form} {entry : Entry}
      (hform : Entry.form head = .ok form) (hentry : form.Production line arguments entry)
      (hline : entry.line? = some line) : LineDeclares line (head :: arguments) [entry]

/-- No entry has a number smaller than that of the first line. -/
theorem Declares.filter_line_eq_nil (h : Declares lines entries) (hnumbered : Numbered first lines)
    (hlt : line < first) : entries.filter (·.line? = some line) = [] := by
  rw [List.filter_eq_nil_iff]
  intro entry hmem hline
  exact absurd (h.le_line hnumbered hmem (of_decide_eq_true hline)) (Nat.not_le.mpr hlt)

/-- What a line declares is found under its number, and nothing else is. Every line in front of
    it has a smaller number and every line behind it a greater one, so that one entry is left at
    most. -/
theorem Declares.lineDeclares (h : Declares lines entries) (hnumbered : Numbered first lines)
    (k : Nat) :
    LineDeclares (first + k) (lines[k]?.getD []) (entries.filter (·.line? = some (first + k))) := by
  -- The line is searched for from the front, and the number of the first line is no constant in
  -- this.
  induction h generalizing first k with
  | nil => exact .blank
  | blank h ih =>
    cases k with
    | zero =>
      rw [Nat.add_zero, h.filter_line_eq_nil hnumbered.tail (Nat.lt_succ_self first)]
      exact .blank
    | succ k =>
      have ih := ih hnumbered.tail k
      rwa [Nat.add_assoc, Nat.add_comm 1 k] at ih
  | @line head arguments form entry lines entries hform hentry h ih =>
    cases k with
    | zero =>
      have hhead : head.line = first := hnumbered.head head List.mem_cons_self
      have hnumber := hentry.line?_eq
      rw [hhead] at hentry hnumber
      rw [Nat.add_zero, List.filter_cons,
        h.filter_line_eq_nil hnumbered.tail (Nat.lt_succ_self first)]
      by_cases hgraph : form = .graph
      · -- The name of the design is not found under any number.
        subst hgraph
        rw [if_pos rfl] at hnumber
        rw [hnumber]
        cases hentry with
        | graph hname => exact .graph hform (.graph hname)
      · rw [if_neg hgraph] at hnumber
        rw [hnumber, if_pos (by simp)]
        exact .entry hform hentry hnumber
    | succ k =>
      have hne : ¬ entry.line? = some (first + (k + 1)) := by
        intro hline
        have hfirst := hentry.line_of_numbered hnumbered hline
        omega
      have ih := ih hnumbered.tail k
      rw [Nat.add_assoc, Nat.add_comm 1 k] at ih
      rwa [List.filter_cons, if_neg (by simpa using hne)]

end Lines

/-! ### Entries by kind -/

section Kinds

variable {entries declared : List Entry} {line : Nat}

/-- Of each kind of entries, those further down have greater numbers. Leaving out the other kinds
    changes no order. -/
theorem pairwise_lines {α : Type} {part : Entry → Option α} {number : α → Nat}
    (hpart : ∀ entry decl, part entry = some decl → entry.line? = some (number decl))
    (h : entries.Pairwise Entry.Precedes) :
    ((entries.filterMap part).map number).Pairwise (· < ·) := by
  rw [List.pairwise_map, List.pairwise_filterMap]
  refine h.imp fun hprecedes decl hdecl decl' hdecl' => ?_
  exact hprecedes _ (hpart _ decl hdecl) _ (hpart _ decl' hdecl')

/-- The types of a netlist are in the order of their lines, whatever is declared between them. -/
theorem pairwise_types (h : entries.Pairwise Entry.Precedes) :
    ((ofEntries entries).types.map (·.line)).Pairwise (· < ·) := by
  refine pairwise_lines (fun entry decl htype => ?_) h
  rw [Entry.type?_eq_some.mp htype, Entry.line?]

/-- The nodes of a netlist are in the order of their lines, so that they are built from the top
    down. -/
theorem pairwise_nodes (h : entries.Pairwise Entry.Precedes) :
    ((ofEntries entries).nodes.map (·.line)).Pairwise (· < ·) := by
  refine pairwise_lines (fun entry decl hnode => ?_) h
  rw [Entry.node?_eq_some.mp hnode, Entry.line?]

/-- The connections of a netlist are in the order of their lines, so that a later one replaces an
    earlier one at its destination. -/
theorem pairwise_connections (h : entries.Pairwise Entry.Precedes) :
    ((ofEntries entries).connections.map (·.line)).Pairwise (· < ·) := by
  refine pairwise_lines (fun entry made hmade => ?_) h
  rw [Entry.connection?_eq_some.mp hmade, Entry.line?]

/-- A netlist has the entries sorted by their kinds. None is lost and none is added, except that the
    name of the design is no declaration. -/
theorem perm_declarations (entries : List Entry) :
    (ofEntries entries).declarations.Perm (entries.filter (·.line?.isSome)) := by
  induction entries with
  | nil => exact .nil
  | cons entry entries ih =>
    cases entry with
    | name => exact ih
    | type decl => exact ih.cons (.type decl)
    | node decl =>
      -- The node comes behind all types, and the connection behind all nodes too.
      refine .trans ?_ (ih.cons (.node decl))
      rw [declarations, declarations, List.append_assoc, List.append_assoc]
      exact List.perm_middle
    | connection made =>
      refine .trans ?_ (ih.cons (.connection made))
      rw [declarations, declarations]
      exact List.perm_middle

/-- What is declared on a line is the same in the netlist. -/
theorem perm_entriesOn (entries : List Entry) (line : Nat) :
    ((ofEntries entries).entriesOn line).Perm (entries.filter (·.line? = some line)) := by
  have hfilter := (perm_declarations entries).filter (·.line? = some line)
  rw [List.filter_filter] at hfilter
  refine hfilter.trans (.of_eq (List.filter_congr fun entry _ => ?_))
  cases entry.line? <;> simp

/-- What a line declares is one entry at most, so that its order among others makes no
    difference. -/
theorem LineDeclares.of_perm {tokens : List Token} {other : List Entry}
    (h : LineDeclares line tokens declared) (hperm : other.Perm declared) :
    LineDeclares line tokens other := by
  -- There is at most one entry, so that nothing can be in another order.
  cases h with
  | blank => exact hperm.eq_nil ▸ .blank
  | graph hform hname => exact hperm.eq_nil ▸ .graph hform hname
  | entry hform hentry hline => exact hperm.eq_singleton ▸ .entry hform hentry hline

/-- No two declarations are on the same line, not even two of different kinds. This does not depend
    on the order in which the netlist keeps them. -/
theorem nodup_lines (h : entries.Pairwise Entry.Precedes) :
    ((ofEntries entries).declarations.filterMap Entry.line?).Nodup := by
  have hincreasing : (entries.filterMap Entry.line?).Pairwise (· < ·) := by
    rw [List.pairwise_filterMap]
    exact h
  have hnodup := hincreasing.imp Nat.ne_of_lt
  refine (List.Perm.nodup_iff ?_).mpr hnodup
  refine ((perm_declarations entries).filterMap Entry.line?).trans (.of_eq ?_)
  rw [List.filterMap_filter]
  refine List.filterMap_congr fun entry _ => ?_
  cases entry.line? <;> simp

end Kinds

/-! ### Texts -/

/-- A netlist as it comes out of a text. -/
structure WellFormed (text : String) (netlist : Netlist) : Prop where
  /-- Names are spelled as names, and operands are no words for truth values. No vector is without a
      wire. Every declaration has the parts that belong to its form and no others. -/
  writable : netlist.isWritable = true
  /-- The tokens of a line carry its number. -/
  numbered : Numbered 1 (tokenLines text)
  /-- A line with tokens declares one thing or names the design, and no other line declares
      anything. -/
  lines : ∀ k, LineDeclares (1 + k) ((tokenLines text)[k]?.getD []) (netlist.entriesOn (1 + k))
  /-- The types are in the order of their lines. -/
  types : (netlist.types.map (·.line)).Pairwise (· < ·)
  /-- The nodes are in the order of their lines. -/
  nodes : (netlist.nodes.map (·.line)).Pairwise (· < ·)
  /-- The connections are in the order of their lines. -/
  connections : (netlist.connections.map (·.line)).Pairwise (· < ·)
  /-- No two declarations are on the same line. -/
  distinct : (netlist.declarations.filterMap Entry.line?).Nodup
  /-- When the netlist is built, it is not refused for a fault of the grammar. -/
  builds : ∀ policy line fault, netlist.toDesign policy ≠ .error (.grammar line fault)

/-- What is read is well-formed. All parts follow from the entries that the lines declare, and from
    the numbers that their tokens carry. -/
theorem wellFormed_of_parse {text : String} {netlist : Netlist} (h : parse text = .ok netlist) :
    WellFormed text netlist := by
  have hwritable := isWritable_of_parse h
  obtain ⟨-, entries, hdeclares, rfl⟩ := parse_eq_ok.mp h
  have hnumbered := numbered_tokenLines text
  have hpairwise := hdeclares.pairwise hnumbered
  exact {
    writable := hwritable
    numbered := hnumbered
    lines k := (hdeclares.lineDeclares hnumbered k).of_perm (perm_entriesOn entries (1 + k))
    types := pairwise_types hpairwise
    nodes := pairwise_nodes hpairwise
    connections := pairwise_connections hpairwise
    distinct := nodup_lines hpairwise
    builds := toDesign_ne_grammar hwritable }

/-- A design that is named twice, with an empty line, a line that is only a comment, a vector of the
    greatest width and the kinds of declarations in turns. -/
theorem wellFormed_of_mixed_lines :
    let text := ".graph a\n\nconnect é true\n.type t Vector 4294967295\n; x\n.graph b\n" ++
      "port in t\n.type u bit\nexpr é add -1 t"
    let netlist : Netlist :=
      { name := some "b", types := [⟨"t", .vector 4294967295, 4⟩, ⟨"u", .bit, 8⟩],
        nodes := [⟨none, .port .input, some "t", 7⟩,
          ⟨some "é", .expression .add (.constant (.int (-1))) (.node "t"), none, 9⟩],
        connections := [⟨"é", .constant (.bool true), 3⟩] }
    parse text = .ok netlist ∧ WellFormed text netlist := by
  intro text netlist
  have hparse : parse text = .ok netlist := by decide +kernel
  exact ⟨hparse, wellFormed_of_parse hparse⟩

end Schematic.Netlist
