import Schematic.Proofs.Grammar
import Schematic.Proofs.JournalLinks
import Schematic.Proofs.LastConnection

namespace Schematic

open Netlist

/-!
# References to nodes

A name stands for one node wherever it is used: as an operand of an expression, as the source of a
connection and as its destination. Only the words for the truth values are no names where constants
can stand, although a node can be declared under them.

* `Design.Computes` — an expression has the operands that are named in its declaration;
* `Builds.computes`, `Builds.realizes` — the expressions and the edges of a built design;
* `Netlist.linesOf` — the lines of one form, with their arguments;
* `References`, `references_of_build` — where the tokens of a text lead in the design that is built
  from it.

A name is resolved at different times: when an expression is declared, when a connection is made,
and at the end by a look-up. All of these go through the one table of chosen names, and a name that
is in it leads to the same node for ever, so that each of them gives the declared node of the name.
The connections are more difficult, since an edge may be replaced. The journal keeps the ends of
every edge that has been made, and its entries are matched with the lines of the text by their
order.

The words `true` and `false` are read as constants where constants can stand. A token names a node
only if it is not one of these words there, and `source_of_declared_true` shows that this cannot be
left out.
-/

/-! ### Operands of expressions -/

namespace Design

variable {design next : Design} {name : String} {decl : NodeDecl} {op : Operator}
  {lhs rhs : Operand}

/-- There is an expression of the name, and its operands are what the given ones stand for. -/
def Computes (design : Design) (name : String) (op : Operator) (lhs rhs : Operand) : Prop :=
  ∃ place node left right, design.node? place = some node ∧ node.name = name ∧
    node.role? = some (.expression op left right) ∧ design.Stands lhs left ∧
      design.Stands rhs right

/-- An expression keeps its operands, and these stay what they stand for. -/
theorem Extends.computes (h : design.Extends next) (hc : design.Computes name op lhs rhs) :
    next.Computes name op lhs rhs := by
  obtain ⟨place, node, left, right, hn, rfl, hr, hl, hrt⟩ := hc
  obtain ⟨other, ho, hdet⟩ := h place node hn
  refine ⟨place, other, left, right, ho, Node.congr_detached Node.name_detached hdet, ?_,
    h.stands hl, h.stands hrt⟩
  rw [Node.congr_detached Node.role?_detached hdet, hr]

/-- The operands are resolved before the expression is there, and stay what they are. -/
theorem DeclaresNode.computes (h : design.DeclaresNode decl next) (hc : design.Consistent)
    (hform : decl.form = .expression op lhs rhs) (hname : decl.effectiveName = .ok name) :
    next.Computes name op lhs rhs := by
  obtain @⟨fresh, mid, node, hfresh, -, hmakes⟩ := h
  obtain rfl := Except.ok.inj (hfresh.symm.trans hname)
  rw [hform] at hmakes
  cases hmakes with
  | @expression _ _ _ left right first _ leftNode _ hl hr _ _ =>
    have hinsert := Extends.insert mid .declared
      (.ofRole fresh leftNode.type (.expression op left right))
    have hfirst := hc.addsLiterals hl.addsLiterals
    refine ⟨mid.nodeCount, _, left, right, by rw [node?_insert, if_pos rfl], rfl, rfl, ?_, ?_⟩
    · exact (hr.addsLiterals.toExtends.trans hinsert).stands (hl.stands hc)
    · exact hinsert.stands (hr.stands hfirst)

/-- Every declared expression is there behind the declarations, with its operands. The later ones
    leave it as it is. -/
theorem computes_of_nodes {start : Design} {nodes : List NodeDecl}
    (h : Chain DeclaresNode start nodes next) (hstart : start.Consistent) (hmem : decl ∈ nodes)
    (hform : decl.form = .expression op lhs rhs) (hname : decl.effectiveName = .ok name) :
    next.Computes name op lhs rhs := by
  -- This is a property of declarations of other forms as well, which are of no interest.
  let holds (decl : NodeDecl) (design : Design) : Prop :=
    decl.form = .expression op lhs rhs → decl.effectiveName = .ok name →
      design.Computes name op lhs rhs
  have hnext : holds decl next :=
    h.holds_of_mem DeclaresNode.consistent hstart (fun hx hc => hx.computes hc)
      (fun hx hmade hform hname => hx.toExtends.computes (hmade hform hname)) hmem
  exact hnext hform hname

/-- There is no other expression of the name, so that a look-up gives the one that was declared
    under it. -/
theorem Computes.of_find? {place : NodeId} (h : design.Computes name op lhs rhs)
    (hc : design.Catalogued) (hfind : design.find? name = some place) :
    ∃ node left right, design.node? place = some node ∧
      node.role? = some (.expression op left right) ∧ design.Stands lhs left ∧
        design.Stands rhs right := by
  obtain ⟨found, node, left, right, hn, hname, hr, hl, hrt⟩ := h
  have hnamed : design.Named name found := ⟨node, hn, Node.isLiteral_of_role? hr, hname⟩
  rw [find?, (hc name found).mpr hnamed] at hfind
  obtain rfl := Option.some.inj hfind
  exact ⟨node, left, right, hn, hr, hl, hrt⟩

end Design

/-! ### Built designs -/

namespace Netlist

open Design

variable {netlist : Netlist} {policy : Policy} {design : Design} {name : String}

/-- Every declared expression is there in a built design, with the operands that it names. -/
theorem Builds.computes {decl : NodeDecl} {op : Operator} {lhs rhs : Operand}
    (h : netlist.Builds policy design) (hmem : decl ∈ netlist.nodes)
    (hform : decl.form = .expression op lhs rhs) (hname : decl.effectiveName = .ok name) :
    design.Computes name op lhs rhs := by
  obtain ⟨htypes, hnodes, hconnections⟩ := h
  have hc := htypes.keep DefinesType.consistent (netlist.blank_consistent policy)
  exact (extends_of_connects hconnections).computes
    (computes_of_nodes hnodes hc hmem hform hname)

/-- An edge that is left is the one of the connection in its place. -/
theorem Builds.realizes {k : EdgeId} {connection : Connection} {edge : Edge}
    (h : netlist.Builds policy design) (hk : netlist.connections[k]? = some connection)
    (hedge : design.edge? k = some edge) : design.Realizes (connection, k) edge := by
  obtain ⟨place, hplace, hr⟩ := exists_left_of_mem h.edges (mem_edges.mpr ⟨k, hedge⟩)
  obtain rfl : place.2 = k := by rw [← hr.id_eq, h.consistent.wired.indexed k edge hedge]
  have hconnection := List.mem_zipIdx_iff_getElem?.mp (List.mem_of_mem_filter hplace)
  obtain rfl := Option.some.inj (hk.symm.trans hconnection)
  exact hr

/-- A declared name is found, and leads to the one node that has it. -/
theorem Builds.exists_named (h : netlist.Builds policy design)
    (hmem : name ∈ Netlist.names netlist.nodes) :
    ∃ id, design.find? name = some id ∧ ∀ other, design.Named name other ↔ other = id := by
  obtain ⟨id, hid⟩ := Option.isSome_iff_exists.mp ((h.names name).mpr hmem)
  refine ⟨id, by rw [find?, hid]; rfl, fun other => ?_⟩
  rw [← h.consistent.catalogued, hid, Option.some_inj, eq_comm]

/-! ### Lines of a form -/

/-- The arguments of a line that the given form is announced for. -/
def Form.arguments? (form : Form) : List Token → Option (List Token)
  | [] => none
  | head :: arguments => if Entry.form head = .ok form then some arguments else none

/-- The lines of one form, in order, with their arguments. -/
def linesOf (form : Form) (text : String) : List (List Token) :=
  (tokenLines text).filterMap form.arguments?

/-- A line of a form has been read as an entry, by the production of this form. -/
theorem Declares.production_of_arguments {lines : List (List Token)} {entries : List Entry}
    {form : Form} {arguments : List Token} (h : Declares lines entries)
    (hmem : arguments ∈ lines.filterMap form.arguments?) :
    ∃ line entry, form.Production line arguments entry ∧ entry ∈ entries := by
  obtain ⟨_ | ⟨head, others⟩, hline, harguments⟩ := List.mem_filterMap.mp hmem
  · exact absurd harguments (by simp [Form.arguments?])
  · simp only [Form.arguments?] at harguments
    split at harguments
    case isTrue hform =>
      obtain rfl := Option.some.inj harguments
      obtain ⟨form', entry, hform', hproduction, hentry⟩ := h.production_of_mem hline
      obtain rfl := Except.ok.inj (hform.symm.trans hform')
      exact ⟨head.line, entry, hproduction, hentry⟩
    case isFalse => exact absurd harguments (by simp)

/-- The connections of a netlist are those of its lines, in order. -/
theorem Declares.connections {lines : List (List Token)} {entries : List Entry}
    (h : Declares lines entries) :
    List.Forall₂ (fun arguments connection =>
        ∃ line, Form.connect.Production line arguments (.connection connection))
      (lines.filterMap Form.connect.arguments?) (entries.filterMap Entry.connection?) := by
  induction h with
  | nil => exact .nil
  | blank _ ih => exact ih
  | @line head arguments form entry lines entries hform hentry _ ih =>
    -- Lines of other forms are dropped on both sides.
    by_cases hconnect : form = .connect
    case pos =>
      subst hconnect
      have hline : Form.connect.arguments? (head :: arguments) = some arguments := if_pos hform
      have hmade : ∃ connection, entry.connection? = some connection ∧
          entry = .connection connection := by
        cases hentry
        exact ⟨_, rfl, rfl⟩
      obtain ⟨connection, hmade, rfl⟩ := hmade
      rw [List.filterMap_cons_some hline, List.filterMap_cons_some hmade]
      exact .cons ⟨head.line, hentry⟩ ih
    case neg =>
      have hline : Form.connect.arguments? (head :: arguments) = none :=
        if_neg fun h => hconnect (Except.ok.inj (hform.symm.trans h))
      have hother : entry.connection? = none := by
        cases hentry with
        | connect => exact absurd rfl hconnect
        | _ => rfl
      rw [List.filterMap_cons_none hline, List.filterMap_cons_none hother]
      exact ih

/-! ### References -/

/-- A token that names a node stands for a node of the name. -/
theorem Token.NamesNode.named {token : Token} {operand : Operand} {place : NodeId}
    (h : token.NamesNode name) (hoperand : token.operand = .ok operand)
    (hstands : design.Stands operand place) : design.Named name place := by
  obtain rfl := Except.ok.inj (hoperand.symm.trans (Token.operand_of_name h))
  exact hstands

/-- The line of an expression leads to its node, and its operands to the nodes that they name. -/
theorem Declares.expression {text : String} {entries : List Entry} {arguments : List Token}
    (h : Declares (tokenLines text) entries) (hb : (ofEntries entries).Builds policy design)
    (hmem : arguments ∈ linesOf .expr text) :
    ∃ label word lhs rhs place node op left right, arguments = [label, word, lhs, rhs] ∧
      design.find? label.text = some place ∧ design.node? place = some node ∧
        node.role? = some (.expression op left right) ∧
          (∀ name, lhs.NamesNode name → design.Named name left) ∧
          ∀ name, rhs.NamesNode name → design.Named name right := by
  obtain ⟨line, entry, hproduction, hentry⟩ := h.production_of_arguments hmem
  cases hproduction with
  | @expr label word _ _ _ op lhs rhs hlabel _ hleft hright =>
    obtain ⟨-, rfl⟩ := Token.identifier_eq_ok.mp hlabel
    have hdecl : ⟨some label.text, .expression op lhs rhs, none, line⟩ ∈
        (ofEntries entries).nodes := List.mem_filterMap.mpr ⟨_, hentry, rfl⟩
    obtain ⟨place, hplace, -⟩ := hb.exists_named (List.mem_filterMap.mpr ⟨_, hdecl, rfl⟩)
    obtain ⟨node, left, right, hn, hr, hl, hrt⟩ :=
      (hb.computes hdecl rfl rfl).of_find? hb.consistent.catalogued hplace
    exact ⟨label, word, _, _, place, node, op, left, right, rfl, hplace, hn, hr,
      fun name hname => hname.named hleft hl, fun name hname => hname.named hright hrt⟩

/-- The line of a connection is the connection in its place, with its destination and its source.
    The other lines between the connections do not count. -/
theorem Declares.connection {text : String} {entries : List Entry} {k : Nat}
    {arguments : List Token} (h : Declares (tokenLines text) entries)
    (hk : (linesOf .connect text)[k]? = some arguments) :
    ∃ destination source connection, arguments = [destination, source] ∧
      (ofEntries entries).connections[k]? = some connection ∧
        connection.destination = destination.text ∧ source.operand = .ok connection.source := by
  obtain ⟨connection, hconnection, line, hproduction⟩ :=
    exists_getElem?_of_forall₂ h.connections hk
  cases hproduction with
  | connect hdestination hsource =>
    obtain ⟨-, hdestination⟩ := Token.identifier_eq_ok.mp hdestination
    exact ⟨_, _, _, rfl, hconnection, hdestination.symm, hsource⟩

/-- Where the tokens of a text that name a node lead: to the node in the given place. -/
structure References (text : String) (session : Session) (name : String) (id : NodeId) : Prop where
  /-- The node is found under the name. -/
  found : session.design.find? name = some id
  /-- It is the only declared node of the name. -/
  unique : ∀ other, session.design.Named name other ↔ other = id
  /-- An operand of an expression is the node if it names it. -/
  operands : ∀ arguments ∈ linesOf .expr text,
    ∃ label word lhs rhs place node op left right, arguments = [label, word, lhs, rhs] ∧
      session.design.find? label.text = some place ∧ session.design.node? place = some node ∧
        node.role? = some (.expression op left right) ∧
          (lhs.NamesNode name → left = id) ∧ (rhs.NamesNode name → right = id)
  /-- The edge that a connection makes comes from the node if the source names it, and leads to the
      node if the destination does. This is what the journal notes, and what the edge is as long as
      it is not replaced. -/
  connections : ∀ k arguments, (linesOf .connect text)[k]? = some arguments →
    ∃ destination source link, arguments = [destination, source] ∧
      session.links[k]? = some link ∧ link.edge = k ∧
        (source.NamesNode name → link.source = id) ∧
        (destination.text = name → link.destination = id) ∧
        ∀ edge, session.design.edge? k = some edge →
          (source.NamesNode name → edge.source = some id) ∧
          (destination.text = name → edge.destination = some id)

/-- In the design that is built from a text, a name that is declared leads to the same node as an
    operand, as a source and as a destination, and this is the node declared under it. -/
theorem references_of_build {text : String} {netlist : Netlist} {policy : Policy}
    {session : Session} {name : String} (hparse : parse text = .ok netlist)
    (hbuild : netlist.build policy = (.ok (), session)) (hname : name ∈ names netlist.nodes) :
    ∃ id, References text session name id := by
  obtain ⟨-, entries, hdeclares, rfl⟩ := parse_eq_ok.mp hparse
  have hb : (ofEntries entries).Builds policy session.design := by
    apply builds_of_toDesign
    rw [toDesign, hbuild]
    rfl
  -- The name leads to one node, and every other way to a node is compared with this one.
  obtain ⟨id, hfound, hunique⟩ := hb.exists_named hname
  refine ⟨id, hfound, hunique, ?operands, ?connections⟩
  case operands =>
    intro arguments hmem
    obtain ⟨label, word, lhs, rhs, place, node, op, left, right, rfl, hplace, hn, hr, hl, hrt⟩ :=
      hdeclares.expression hb hmem
    exact ⟨label, word, lhs, rhs, place, node, op, left, right, rfl, hplace, hn, hr,
      fun h => (hunique left).mp (hl name h), fun h => (hunique right).mp (hrt name h)⟩
  case connections =>
    intro k arguments hk
    obtain ⟨destination, source, connection, rfl, hconnection, hdestination, hsource⟩ :=
      hdeclares.connection hk
    have hplace : (ofEntries entries).connections.zipIdx[k]? = some (connection, k) := by
      rw [List.getElem?_zipIdx, hconnection, Option.map_some, Nat.zero_add]
    obtain ⟨link, hlink, hfollows⟩ := exists_getElem?_of_forall₂ (follows_of_build hbuild) hplace
    refine ⟨destination, source, link, rfl, hlink, hfollows.edge, fun h => ?_, ?_, ?_⟩
    · exact (hunique _).mp (h.named hsource hfollows.source)
    · rintro rfl
      exact (hunique _).mp (hdestination ▸ hfollows.destination)
    · -- The edge that is left is the one of the connection, whatever the journal says.
      intro edge hedge
      obtain ⟨-, ⟨driven, hd, hdriven⟩, driver, hs, hstands⟩ := hb.realizes hconnection hedge
      refine ⟨fun h => ?_, ?_⟩
      · rw [hs, (hunique driver).mp (h.named hsource hstands)]
      · rintro rfl
        rw [hd, (hunique driven).mp (hdestination ▸ hdriven)]

/-- The node `a` is an operand, the source of a connection that is replaced, and a destination. The
    replaced edge is gone from the design, but the journal has its link. -/
theorem references_of_replaced_driver :
    let text := "signal a bit\nsignal s bit\nexpr e add a s\nconnect s a\nconnect s e\nconnect a s"
    ∃ netlist session, parse text = .ok netlist ∧ netlist.build .lenient = (.ok (), session) ∧
      References text session "a" 0 ∧ session.links = [⟨0, 0, 1⟩, ⟨1, 2, 1⟩, ⟨2, 1, 0⟩] ∧
      session.design.edge? 0 = none := by
  intro text
  let netlist : Netlist :=
    { nodes := [⟨some "a", .signal, some "bit", 1⟩, ⟨some "s", .signal, some "bit", 2⟩,
        ⟨some "e", .expression .add (.node "a") (.node "s"), none, 3⟩],
      connections := [⟨"s", .node "a", 4⟩, ⟨"s", .node "e", 5⟩, ⟨"a", .node "s", 6⟩] }
  have hparse : parse text = .ok netlist := by decide +kernel
  have houtcome : (netlist.build .lenient).1 = .ok () := by decide +kernel
  have hlinks : (netlist.build .lenient).2.links = [⟨0, 0, 1⟩, ⟨1, 2, 1⟩, ⟨2, 1, 0⟩] := by
    decide +kernel
  have hedge : (netlist.build .lenient).2.design.edge? 0 = none := by decide +kernel
  have hfind : (netlist.build .lenient).2.design.find? "a" = some 0 := by decide +kernel
  generalize hbuild : netlist.build .lenient = built at houtcome hlinks hedge hfind
  obtain ⟨_, session⟩ := built
  obtain rfl := houtcome
  have hname : "a" ∈ names netlist.nodes := by decide
  obtain ⟨id, href⟩ := references_of_build hparse hbuild hname
  obtain rfl := Option.some.inj (href.found.symm.trans hfind)
  exact ⟨netlist, session, hparse, hbuild, href, hlinks, hedge⟩

/-- A node can be declared under the word for a truth value, which is no name as a source. -/
theorem source_of_declared_true :
    let text := "signal true boolean\nsignal s boolean\nconnect s true"
    ∃ netlist session destination source link id,
      parse text = .ok netlist ∧ netlist.build .lenient = (.ok (), session) ∧
      "true" ∈ names netlist.nodes ∧ session.design.find? "true" = some id ∧
      linesOf .connect text = [[destination, source]] ∧
      source.kind = .identifier ∧ source.text = "true" ∧
      session.links = [link] ∧ link.source ≠ id := by
  intro text
  let netlist : Netlist :=
    { nodes := [⟨some "true", .signal, some "boolean", 1⟩, ⟨some "s", .signal, some "boolean", 2⟩],
      connections := [⟨"s", .constant (.bool true), 3⟩] }
  have hparse : parse text = .ok netlist := by decide +kernel
  have hlines : linesOf .connect text =
      [[⟨.identifier, "s", ⟨3, 9⟩⟩, ⟨.identifier, "true", ⟨3, 11⟩⟩]] := by decide +kernel
  have houtcome : (netlist.build .lenient).1 = .ok () := by decide +kernel
  have hlinks : (netlist.build .lenient).2.links = [⟨0, 2, 1⟩] := by decide +kernel
  have hfind : (netlist.build .lenient).2.design.find? "true" = some 0 := by decide +kernel
  generalize hbuild : netlist.build .lenient = built at houtcome hlinks hfind
  obtain ⟨_, session⟩ := built
  obtain rfl := houtcome
  exact ⟨netlist, session, _, _, _, _, hparse, hbuild, by decide, hfind, hlines, rfl, rfl,
    hlinks, by decide⟩

end Netlist

end Schematic
