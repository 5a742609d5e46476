import Schematic.Netlist.Build
import Schematic.Proofs.Changes

namespace Schematic

/-!
# Literals of constants

A constant in a netlist becomes a literal. A truth value shares its literal with all its other uses,
and any other constant gets a new one, so that no constant is ever refused.

* `Constant.literal` — the literal that is made for a constant;
* `Design.Holds` — the node in a place is a literal of the constant;
* `Design.NotesLiterals` — the literals noted for the truth values hold these. No single change
  harms this (`Change.notesLiterals`);
* `Design.Supplies` — a design gets the literal of a constant, or has it already;
* `Design.AddsLiterals` — what is common to all of it: nothing but literals is new;
* `Design.KeptByLiterals` — a property of designs that no literal can harm, so that it is still
  there when a design has the literals of its constants (`KeptByLiterals.supplies`).

Constants come up in three places: as the default of a parameter, as an operand and as the source of
a connection. Each time the design gains at most one literal and at most one note, and `Supplies`
lists the three ways in which this can happen. Facts about designs are carried over a constant by
`KeptByLiterals`: it is enough that a new literal and a note do no harm, and the note may be assumed
to be the first one of its truth value and to be right.
-/

/-- The literal that is made for a constant. -/
def Constant.literal : Constant → Node
  | .bool value => .ofConstant (if value then "bool_true" else "bool_false") .boolean (.bool value)
  | .int value => .ofConstant ("int" ++ toString value.toInt) .integer (.int value)
  | .string value => .ofConstant ("str:" ++ value) .string (.string value)

/-- The literal of a constant has this constant as its value. -/
@[simp] theorem Constant.value?_literal (value : Constant) : value.literal.value? = some value := by
  cases value <;> rfl

/-- The literal of a constant counts as a literal, whatever the constant is. -/
@[simp] theorem Constant.isLiteral_literal (value : Constant) : value.literal.isLiteral = true := by
  cases value <;> rfl

/-- Every design has room for the literal of a constant, since it refers to no other node. -/
theorem Constant.admits_literal (value : Constant) (design : Design) :
    design.Admits value.literal := by
  cases value <;> exact .ofConstant ..

namespace Design

variable {design next later : Design} {id : NodeId} {node : Node}

/-- The node in the place is a literal of the constant. -/
def Holds (design : Design) (value : Constant) (id : NodeId) : Prop :=
  ∃ node, design.node? id = some node ∧ node.value? = some value

/-- The literals that are noted for the truth values hold these. -/
def NotesLiterals (design : Design) : Prop :=
  ∀ value id, design.shared? value = some id → design.Holds (.bool value) id

/-! ### Literals stay -/

/-- A literal stays a literal of the same constant when other nodes and edges come in. -/
theorem Extends.holds (h : design.Extends next) {value : Constant} (hv : design.Holds value id) :
    next.Holds value id := by
  obtain ⟨node, hn, hval⟩ := hv
  obtain ⟨other, ho, hdet⟩ := h id node hn
  exact ⟨other, ho, by rw [Node.congr_detached Node.value?_detached hdet, hval]⟩

/-- The noted literals stay right if the notes are the same and the literals are still there. -/
theorem NotesLiterals.of_shared?_eq (hnotes : design.NotesLiterals)
    (hs : next.shared? = design.shared?)
    (hkeep : ∀ {value id}, design.Holds value id → next.Holds value id) : next.NotesLiterals := by
  intro value id h
  rw [hs] at h
  exact hkeep (hnotes value id h)

/-- A new node is no note: the literals of the truth values are those that have been noted
    before. -/
theorem shared?_insert (design : Design) (naming : Naming) (node : Node) :
    (design.insert naming node).shared? = design.shared? := by
  funext value
  cases naming <;> cases value <;> rfl

/-- The note of one truth value leaves that of the other one as it is. -/
theorem shared?_share (design : Design) (value other : Bool) (id : NodeId) :
    (design.share value id).shared? other =
      if other = value then some id else design.shared? other := by
  cases value <;> cases other <;> rfl

/-- No single change harms the literals of the truth values. A note is only ever made for a literal
    of that value, and no change makes a literal anything else. -/
theorem Change.notesLiterals (h : Change design next) (hnotes : design.NotesLiterals) :
    next.NotesLiterals := by
  cases h with
  | define => exact hnotes.of_shared?_eq (funext fun value => by cases value <;> rfl) id
  | insert naming h => exact hnotes.of_shared?_eq (shared?_insert ..) (Extends.insert _ _ _).holds
  | @share node value id hnone hn hv =>
    -- The new note is right by itself, and the old one of the other truth value stays.
    have hext : design.Extends (design.share value id) := .of_nodes_eq (nodes_share ..)
    intro other place hp
    rw [shared?_share] at hp
    split at hp
    case isTrue hother =>
      obtain rfl := Option.some.inj hp
      exact hother ▸ hext.holds ⟨node, hn, hv⟩
    case isFalse => exact hext.holds (hnotes other place hp)
  | copy hn =>
    exact hnotes.of_shared?_eq (funext fun value => by cases value <;> rfl)
      (Extends.insertUnnamed _ _).holds
  | @turn node place direction hn hr =>
    refine hnotes.of_shared?_eq (funext fun value => by cases value <;> rfl) ?_
    rintro value id ⟨old, ho, hv⟩
    -- A port is no literal, and the other nodes stay.
    have hne : id ≠ place := by
      rintro rfl
      obtain rfl : node = old := Option.some.inj (hn.symm.trans ho)
      obtain ⟨_, _, _ | _⟩ := node
      · exact absurd hr (by simp [Node.role?])
      · exact absurd hv (by simp [Node.value?])
    exact ⟨old, by rw [node?_updateNode, if_neg hne, ho], hv⟩
  | unlink h => exact hnotes.of_shared?_eq (Rewires.unlink ..).shared? (Extends.unlink _ _ _).holds
  | link => exact hnotes.of_shared?_eq (Rewires.link ..).shared? (Extends.link _ _ _ _).holds

/-- No sequence of single changes harms the literals of the truth values. -/
theorem Reaches.notesLiterals (h : design.Reaches next) (hnotes : design.NotesLiterals) :
    next.NotesLiterals := by
  induction h with
  | refl => exact hnotes
  | tail _ hchange ih => exact hchange.notesLiterals ih

/-- At the start there are no notes, so that none can be wrong. -/
theorem NotesLiterals.start (name : String) (policy : Policy) :
    (Session.start name policy).design.NotesLiterals := by
  intro value id h
  cases value <;> exact absurd h (by simp [shared?, Session.start])

/-- In every run, the literal that is noted for a truth value holds it. -/
theorem NotesLiterals.run (name : String) (policy : Policy) (commands : List Command) :
    ((Session.start name policy).run commands).design.NotesLiterals :=
  (Session.reaches_run (Session.wired_start name policy) commands).notesLiterals
    (.start name policy)

/-! ### Nothing but literals is new -/

/-- A design that differs from another one in new literals only. -/
structure AddsLiterals (design next : Design) : Prop where
  /-- It comes from the other one by single changes. -/
  reaches : design.Reaches next
  /-- The old nodes stay. -/
  nodes : ∀ {id node}, design.node? id = some node → next.node? id = some node
  /-- The new nodes are literals. -/
  fresh : ∀ {id node}, next.node? id = some node → node.isLiteral = false →
    design.node? id = some node
  /-- The policy stays. -/
  policy : next.policy = design.policy
  /-- The types stay. -/
  types : next.types = design.types
  /-- The chosen names stay. -/
  declared : next.declared = design.declared
  /-- The edges stay. -/
  edgeTable : next.edgeTable = design.edgeTable

namespace AddsLiterals

/-- A design differs from itself in nothing. -/
theorem refl (design : Design) : design.AddsLiterals design :=
  ⟨.refl, id, fun h _ => h, rfl, rfl, rfl, rfl⟩

/-- New literals in two portions are new literals. Nothing but literals is new in either, and so
    nothing else is new in both. -/
theorem trans (h : design.AddsLiterals next) (h' : next.AddsLiterals later) :
    design.AddsLiterals later where
  reaches := h.reaches.trans h'.reaches
  nodes hn := h'.nodes (h.nodes hn)
  fresh hn hl := h.fresh (h'.fresh hn hl) hl
  policy := h'.policy.trans h.policy
  types := h'.types.trans h.types
  declared := h'.declared.trans h.declared
  edgeTable := h'.edgeTable.trans h.edgeTable

/-- The literal of a constant is one new literal. The types, the chosen names and the edges are
    those from before. -/
theorem insert (design : Design) (value : Constant) :
    design.AddsLiterals (design.insert .derived value.literal) where
  reaches := .single (.insert .derived (value.admits_literal design))
  nodes h := by
    rw [node?_insert, if_neg (Nat.ne_of_lt (lt_nodeCount_of_node? h)), h]
  fresh h hl := by
    rw [node?_insert] at h
    split at h
    · obtain rfl := Option.some.inj h
      exact absurd hl (by simp)
    · exact h
  policy := rfl
  types := rfl
  declared := rfl
  edgeTable := rfl

/-- A note makes no node at all, and leaves types, chosen names and edges alone. -/
theorem share {value : Bool} (hnone : design.shared? value = none)
    (hv : design.Holds (.bool value) id) : design.AddsLiterals (design.share value id) where
  reaches := by
    obtain ⟨node, hn, hval⟩ := hv
    exact .single (.share hnone hn hval)
  nodes h := by rw [node?, nodes_share]; exact h
  fresh h _ := by rw [node?, nodes_share] at h; exact h
  policy := by cases value <;> rfl
  types := by cases value <;> rfl
  declared := by cases value <;> rfl
  edgeTable := edgeTable_share ..

/-- Where nothing but literals is new, all old nodes stay. -/
theorem toExtends (h : design.AddsLiterals next) : design.Extends next :=
  fun _ _ hn => ⟨_, h.nodes hn, rfl⟩

end AddsLiterals

/-! ### The literal of a constant -/

/-- The design gets the literal of the constant, in the given place, or has it there already. -/
inductive Supplies (design : Design) : Constant → NodeId → Design → Prop
  /-- The truth value has been used before. -/
  | shared {value : Bool} {id : NodeId} (h : design.shared? value = some id) :
      Supplies design (.bool value) id design
  /-- The truth value has not been used before. -/
  | noted {value : Bool} (h : design.shared? value = none) :
      Supplies design (.bool value) design.nodeCount
        ((design.insert .derived (Constant.bool value).literal).share value design.nodeCount)
  /-- Any other constant. -/
  | made {value : Constant} (h : value.storage ≠ .bool) :
      Supplies design value design.nodeCount (design.insert .derived value.literal)

/-- The literal that is made for a constant stands in the first free place. -/
theorem holds_insert_literal (design : Design) (value : Constant) :
    (design.insert .derived value.literal).Holds value design.nodeCount :=
  ⟨value.literal, by rw [node?_insert, if_pos rfl], value.value?_literal⟩

/-- The property of designs survives the literals of constants: every new one, and the note of the
    first one of a truth value, which finds no other note and is right. -/
structure KeptByLiterals (p : Design → Prop) : Prop where
  literal : ∀ {design : Design} (value : Constant),
    p design → p (design.insert .derived value.literal)
  share : ∀ {design : Design} {value : Bool} {id : NodeId}, design.shared? value = none →
    design.Holds (.bool value) id → p design → p (design.share value id)

/-- No constant takes more than a literal and a note. So to keep a property up it is enough to look
    at these two. -/
theorem KeptByLiterals.supplies {p : Design → Prop} {value : Constant} (hp : KeptByLiterals p)
    (h : design.Supplies value id next) (hd : p design) : p next := by
  cases h with
  | shared => exact hd
  | noted h =>
    refine hp.share ?_ (holds_insert_literal design _) (hp.literal _ hd)
    rw [shared?_insert, h]
  | made => exact hp.literal value hd

/-- That nothing but literals is new is itself such a property. -/
theorem AddsLiterals.keptByLiterals (design : Design) : KeptByLiterals design.AddsLiterals where
  literal value h := h.trans (.insert _ value)
  share hnone hv h := h.trans (.share hnone hv)

namespace Supplies

variable {value : Constant}

/-- To supply a constant adds nothing but literals. -/
theorem addsLiterals (h : design.Supplies value id next) : design.AddsLiterals next :=
  (AddsLiterals.keptByLiterals design).supplies h (.refl design)

/-- The literal holds the constant. For one that has been there before, this rests on what has been
    noted. -/
theorem holds (h : design.Supplies value id next) (hnotes : design.NotesLiterals) :
    next.Holds value id := by
  cases h with
  | shared h => exact hnotes _ id h
  | noted h =>
    exact (Extends.of_nodes_eq (nodes_share ..)).holds (holds_insert_literal design _)
  | made => exact holds_insert_literal design value

end Supplies

end Design

/-! ### The edit -/

/-- A constant is never refused. Whatever the design is like, there is a literal noted that can be
    given back, or a new one is made. -/
theorem Session.perform_constant (session : Session) (value : Constant) :
    ∃ id next journal, session.design.Supplies value id next ∧
      session.perform (Edit.constant value) = (.ok id, { design := next, journal }) := by
  -- A truth value may have its literal already, and any other constant gets a new one.
  cases value with
  | bool value =>
    simp only [Edit.constant, perform_boolLiteral]
    cases hs : session.design.shared? value with
    | some id => exact ⟨id, _, _, .shared hs, rfl⟩
    | none => exact ⟨_, _, _, .noted hs, rfl⟩
  | int value =>
    have hs : session.design.Supplies (.int value) _ _ := .made (by simp [Constant.storage])
    exact ⟨_, _, _, hs, by simp only [Edit.constant, Edit.intLiteral, perform_insert]; rfl⟩
  | string value =>
    have hs : session.design.Supplies (.string value) _ _ := .made (by simp [Constant.storage])
    exact ⟨_, _, _, hs, by simp only [Edit.constant, Edit.stringLiteral, perform_insert]; rfl⟩

end Schematic
