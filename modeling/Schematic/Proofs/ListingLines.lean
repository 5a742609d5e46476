import Schematic.CommandLine
import Schematic.Proofs.FaultyLines
import Schematic.Proofs.LiteralNames
import Schematic.Proofs.Strictness
import Schematic.Proofs.Typing
import Schematic.Proofs.Writability

namespace Schematic

open Netlist

/-!
# The lines of a listing

The listing of a design has a row for each node, and a row is one line unless a text constant with a
newline in it is shown there.

* `Text.IsLine` — a text that stays on one line;
* `outputLines` — the lines of an output, all of which are ended;
* `Node.IsPlain` — a node that shows no text with a newline;
* `Design.MakesLiterals` — the literals are those that are made for their constants. The building of
  a netlist keeps this up (`MakesLiterals.keptByBuilding`);
* `Design.Legible` — the names that are chosen stay on one line, and those of literals if they can;
* `Legible.isLine_row`, `Legible.lines_iff` — the rows that stay on one line;
* `Options.lists_of_execute` — what the command puts out for a netlist that it accepts.

The rows of a listing are put together from names and values, and every part of a row is looked at
for a newline. Chosen names come from identifiers and have none; a type name, a numeral and a
keyword have none either. What is left is the text of a string constant, which is shown in the row
of its literal and in the rows of the nodes that this drives. That the literals show nothing else
than their constants is an invariant of building; with it, a condition on the rows becomes one on
the netlist.

On the side of the output, a text with a newline in it has more than one line, and the lines of the
output are the lines of its rows. So their number is that of the rows if and only if every row is a
line.
-/

/-! ### Texts on one line -/

namespace Text

/-- The text stays on one line. -/
def IsLine (text : String) : Prop := '\n' ∉ text.toList

instance (text : String) : Decidable (IsLine text) := inferInstanceAs (Decidable (_ ∉ _))

/-- Two texts in a row stay on one line exactly if each of them does. -/
@[simp] theorem isLine_append {first second : String} :
    IsLine (first ++ second) ↔ IsLine first ∧ IsLine second := by
  simp [IsLine]

/-- Blanks behind a text do not break a line. -/
@[simp] theorem isLine_padRight {width : Nat} {text : String} :
    IsLine (padRight width text) ↔ IsLine text := by
  simp [IsLine, padRight, List.rightpad]

/-- A name stays on one line, since a newline neither begins nor continues one. -/
theorem isLine_of_isName {text : String} (h : isName text = true) : IsLine text := by
  have hnewline : isNameStart '\n' = false ∧ isNameChar '\n' = false := by decide
  intro hmem
  unfold isName at h
  split at h
  case h_1 => exact absurd h (by simp)
  case h_2 c cs hcs =>
    rw [Bool.and_eq_true, List.all_eq_true] at h
    rcases List.mem_cons.mp (hcs ▸ hmem) with rfl | hmem
    · exact absurd h.1 (by simp [hnewline.1])
    · exact absurd (h.2 _ hmem) (by simp [hnewline.2])

/-- A numeral stays on one line, as neither a sign nor a digit is a newline. -/
theorem isLine_numeral (numeral : Numeral) : IsLine numeral.text := by
  rw [IsLine, Numeral.toList_text, Numeral.chars]
  intro hmem
  rcases List.mem_append.mp hmem with hsign | hdigit
  · revert hsign
    cases numeral.sign <;> decide
  · exact absurd (numeral.areDigits _ hdigit) (by decide)

/-- An integer is shown on one line, sign included. -/
theorem isLine_toString (i : Int) : IsLine (toString i) := by
  rw [← Numeral.text_ofInt]
  exact isLine_numeral _

/-- A natural number is shown on one line. -/
@[simp] theorem isLine_repr (n : Nat) : IsLine n.repr := isLine_toString n

end Text

open Text

/-! ### Lines of outputs -/

/-- A newline between two texts is the end of a line, and the lines of both are put one behind the
    other. -/
theorem Netlist.textLines_concat (first second : String) :
    textLines (first ++ "\n" ++ second) = textLines first ++ textLines second := by
  induction first using textLines_induction with
  | line text h => rw [textLines_append h, textLines_of_line h, List.singleton_append]
  | lines front back h ih =>
    rw [textLines_append h, String.append_assoc, String.append_assoc, textLines_append h,
      ← String.append_assoc, ih, List.cons_append]

/-- A text has one line, or several if there is a newline in it. -/
theorem Netlist.length_textLines (text : String) :
    1 ≤ (textLines text).length ∧ ((textLines text).length = 1 ↔ IsLine text) := by
  induction text using textLines_induction with
  | line text h =>
    rw [textLines_of_line h]
    exact ⟨Nat.le_refl 1, iff_of_true rfl h⟩
  | lines first second h ih =>
    have hnewline : ¬ IsLine (first ++ "\n" ++ second) := by simp [IsLine]
    rw [textLines_append h, List.length_cons, iff_false_right hnewline]
    omega

/-- The lines of an output, each of which is ended by a newline. -/
def outputLines (output : String) : List String := (textLines output).dropLast

/-- What is put out line by line has the lines of what is put out. -/
theorem outputLines_join (texts : List String) :
    outputLines (String.join (texts.map (· ++ "\n"))) = texts.flatMap textLines := by
  have hlines : textLines (String.join (texts.map (· ++ "\n"))) =
      texts.flatMap textLines ++ [""] := by
    induction texts with
    | nil => rfl
    | cons text texts ih =>
      rw [List.map_cons, String.join_cons, textLines_concat, ih, List.flatMap_cons,
        List.append_assoc]
  rw [outputLines, hlines, List.dropLast_concat]

/-- Texts have at least as many lines as there are texts, and no more exactly if each of them is a
    line. By induction on the texts. -/
theorem length_flatMap_textLines (texts : List String) :
    texts.length ≤ (texts.flatMap textLines).length ∧
      ((texts.flatMap textLines).length = texts.length ↔ ∀ text ∈ texts, IsLine text) := by
  induction texts with
  | nil => simp
  | cons text texts ih =>
    obtain ⟨hpos, hone⟩ := length_textLines text
    -- The first text has one line at least, so that an excess cannot be made good by the others.
    rw [List.flatMap_cons, List.length_append, List.length_cons, List.forall_mem_cons, ← hone,
      ← ih.2]
    omega

/-- Texts that are lines are put out as they are. -/
theorem flatMap_textLines {texts : List String} (h : ∀ text ∈ texts, IsLine text) :
    texts.flatMap textLines = texts := by
  induction texts with
  | nil => rfl
  | cons text texts ih =>
    obtain ⟨hfirst, hrest⟩ := List.forall_mem_cons.mp h
    rw [List.flatMap_cons, textLines_of_line hfirst, ih hrest, List.singleton_append]

/-! ### Nodes that show a newline -/

/-- The constant is no text with a newline in it. -/
def Constant.IsPlain (value : Constant) : Prop := ∀ text, value = .string text → IsLine text

/-- The node is no literal of a text with a newline in it. -/
def Node.IsPlain (node : Node) : Prop := ∀ text, node.value? = some (.string text) → IsLine text

namespace Constant

/-- A constant is shown on one line unless it is a text with a newline in it. -/
theorem isLine_display (value : Constant) : IsLine value.display ↔ value.IsPlain := by
  cases value with
  | bool value =>
    refine iff_of_true ?_ (fun text h => absurd h (by simp))
    cases value <;> decide
  | int value => exact iff_of_true (isLine_toString _) (fun text h => absurd h (by simp))
  | string value => simp [IsPlain, display]

/-- The label of a constant stays on one line unless it is made from a text with a newline in it. -/
theorem isLine_label (value : Constant) : IsLine value.label ↔ value.IsPlain := by
  -- Only the label of a text has anything in it that the netlist could choose.
  cases value with
  | bool value =>
    refine iff_of_true ?_ (fun text h => absurd h (by simp))
    cases value <;> decide
  | int value =>
    refine iff_of_true ?_ (fun text h => absurd h (by simp))
    exact isLine_append.mpr ⟨by decide, isLine_toString _⟩
  | string value =>
    have hprefix : IsLine "str:" := by decide
    simp [IsPlain, label, hprefix]

end Constant

namespace Node

variable {node : Node} {value : Constant}

/-- A literal shows a newline exactly if its constant does. -/
theorem isPlain_of_value? (hv : node.value? = some value) : node.IsPlain ↔ value.IsPlain := by
  simp only [IsPlain, Constant.IsPlain, hv, Option.some.injEq]

/-- A node with a role shows no text of a constant. -/
theorem isPlain_of_role (hv : node.value? = none) : node.IsPlain :=
  fun text h => absurd (hv.symm.trans h) (by simp)

/-- A literal is shown as its constant. -/
theorem display_of_value? (hv : node.value? = some value) : node.display = value.display := by
  obtain ⟨_, _, _ | _⟩ := node
  · rw [Option.some.inj hv.symm]
    rfl
  · exact absurd hv (by simp [value?])

/-- A node with a role is shown by its name. -/
theorem display_of_role (hv : node.value? = none) : node.display = node.name := by
  obtain ⟨_, _, _ | _⟩ := node
  · exact absurd hv (by simp [value?])
  · rfl

end Node

namespace Design

variable {design next : Design} {id : NodeId} {node : Node} {value : Constant} {operand : Operand}
  {decl : NodeDecl} {name : String} {form : NodeForm}

/-! ### Literals are what is made for their constants -/

/-- The literals are those that are made for their constants, apart from their edges. -/
def MakesLiterals (design : Design) : Prop :=
  ∀ id node value, design.node? id = some node → node.value? = some value →
    node.detached = value.literal

namespace MakesLiterals

/-- A new node does no harm if it is no literal or the one that is made for its constant. -/
theorem insert (h : design.MakesLiterals) (naming : Naming)
    (hnode : ∀ value, node.value? = some value → node.detached = value.literal) :
    (design.insert naming node).MakesLiterals := by
  intro id other value ho
  rw [node?_insert] at ho
  split at ho
  case isTrue =>
    obtain rfl := Option.some.inj ho
    exact hnode value
  case isFalse => exact h id other value ho

/-- The literal of a constant is what is made for this constant. -/
theorem insert_literal (h : design.MakesLiterals) (value : Constant) :
    (design.insert .derived value.literal).MakesLiterals := by
  refine h.insert .derived fun other hv => ?_
  rw [value.value?_literal] at hv
  obtain rfl := Option.some.inj hv
  cases value <;> rfl

/-- What a netlist says of a literal is its constant alone. A literal is made under the name of its
    constant, and nothing renames a node. -/
theorem keptByBuilding : KeptByBuilding MakesLiterals where
  literal value h := h.insert_literal value
  share _ _ h id node value hn := by
    rw [node?, nodes_share] at hn
    exact h id node value hn
  declared hmakes h := by
    refine h.insert .declared fun value hv => ?_
    exact absurd hv (by simp [value?_eq_none hmakes.isLiteral_eq])
  driven {design} destination source driver driven h := by
    have hext := Extends.withDriver design destination source driver driven
    intro id node value hn hv
    obtain ⟨old, hold, hdet⟩ := hext.detached_of_nodeCount_eq (nodeCount_withDriver ..) hn
    rw [hdet]
    exact h id old value hold ((Node.congr_detached Node.value?_detached hdet).symm.trans hv)

end MakesLiterals

/-! ### The name of the design -/

/-- Where only nodes and edges change, the design keeps its name. -/
theorem Rewires.name_eq (h : design.Rewires next) : next.name = design.name := by rw [h]

/-- No line of a netlist renames the design. -/
theorem keptByBuilding_name (name : String) : KeptByBuilding fun design => design.name = name where
  literal _ h := h
  share {design value id} _ _ h := by cases value <;> exact h
  declared _ h := h
  driven _ _ _ _ h := (Rewires.withDriver ..).name_eq.trans h

/-! ### Legible designs -/

/-- All names that are chosen stay on one line: that of the design, those of the types of its nodes,
    and those of the nodes that are no literals. The literals are made for their constants. -/
structure Legible (design : Design) : Prop where
  name : IsLine design.name
  type : ∀ id node, design.node? id = some node → IsLine node.type.name
  chosen : ∀ id node, design.node? id = some node → node.value? = none → IsLine node.name
  literals : design.MakesLiterals

namespace Legible

/-- The name of a node stays on one line exactly if the node shows no newline. -/
theorem isLine_name (h : design.Legible) (hn : design.node? id = some node) :
    IsLine node.name ↔ node.IsPlain := by
  cases hv : node.value? with
  | none => exact iff_of_true (h.chosen id node hn hv) (Node.isPlain_of_role hv)
  | some value =>
    have hname : node.name = value.label := by
      rw [← node.name_detached, h.literals id node value hn hv, value.name_literal]
    rw [hname, value.isLine_label, Node.isPlain_of_value? hv]

/-- What is shown of a node stays on one line exactly if the node shows no newline. -/
theorem isLine_display (h : design.Legible) (hn : design.node? id = some node) :
    IsLine node.display ↔ node.IsPlain := by
  cases hv : node.value? with
  | none => rw [Node.display_of_role hv, h.isLine_name hn]
  | some value => rw [Node.display_of_value? hv, value.isLine_display, Node.isPlain_of_value? hv]

/-- The heading is one line: it has the name of the design in it and two numbers. -/
theorem isLine_heading (h : design.Legible) : IsLine design.heading := by
  have htext : IsLine "graph " ∧ IsLine ": " ∧ IsLine " nodes, " ∧ IsLine " edges" := by decide
  have hheading : design.heading = "graph " ++ design.name ++ ": " ++ toString design.nodeCount ++
      " nodes, " ++ toString design.edgeCount ++ " edges" := rfl
  simp [hheading, htext, h.name]

/-- The column of the driver shows a text with a newline if the driver is the literal of one. -/
theorem isLine_driverText (h : design.Legible) (id : NodeId) :
    IsLine (design.driverText id) ↔ ∀ source driver, design.driver? id = some source →
      design.node? source = some driver → driver.IsPlain := by
  unfold driverText
  cases hd : (design.driver? id).bind design.node? with
  | none =>
    refine iff_of_true (show IsLine "-" by decide) fun source driver hsource hn => ?_
    rw [hsource, Option.bind_some, hn] at hd
    exact absurd hd (by simp)
  | some driver =>
    obtain ⟨source, hsource, hn⟩ := Option.bind_eq_some_iff.mp hd
    refine (h.isLine_display hn).trans ⟨?_, fun hall => hall source driver hsource hn⟩
    -- A node has one driver, which is the one that is shown.
    intro hplain other node hother ho
    obtain rfl := Option.some.inj (hsource.symm.trans hother)
    obtain rfl := Option.some.inj (hn.symm.trans ho)
    exact hplain

/-- A row is one line if neither its node nor the driver of this is the literal of a text with a
    newline in it. -/
theorem isLine_row (h : design.Legible) (hn : design.node? id = some node) :
    IsLine (design.row id node) ↔ node.IsPlain ∧ ∀ source driver,
      design.driver? id = some source → design.node? source = some driver → driver.IsPlain := by
  have htag : IsLine node.tag.name := by cases node.tag <;> decide
  have htext : IsLine "  " ∧ IsLine " " ∧ IsLine " <- " ∧ IsLine " fan-out " := by decide
  rw [← h.isLine_driverText, ← h.isLine_name hn]
  simp [row, htag, htext, h.type id node hn]

/-- All lines of the listing are lines if no node is the literal of a text with a newline in it. -/
theorem lines_iff (h : design.Legible) :
    (∀ line ∈ design.listing, IsLine line) ↔
      ∀ id node, design.node? id = some node → node.IsPlain := by
  rw [listing, List.forall_mem_cons, List.forall_mem_map]
  constructor
  · rintro ⟨-, hrows⟩ id node hn
    exact ((h.isLine_row hn).mp (hrows (id, node) (mem_places.mpr hn))).1
  · refine fun hall => ⟨h.isLine_heading, fun place hplace => ?_⟩
    exact (h.isLine_row (mem_places.mp hplace)).mpr
      ⟨hall _ _ (mem_places.mp hplace), fun source driver _ => hall source driver⟩

end Legible

end Design

/-! ### Built netlists -/

namespace Netlist

open Design

variable {netlist : Netlist} {policy : Policy} {design : Design} {decl : NodeDecl} {name : String}

/-- The name of a declaration stays on one line, whether it is chosen or made up from a type. -/
theorem NodeDecl.isLine_effectiveName (h : decl.isWritable = true)
    (hname : decl.effectiveName = .ok name) : IsLine name := by
  -- Writable declarations have identifiers for names and for types.
  have hgiven : ∀ given, decl.name = some given → isName given = true := by
    intro given hsome
    simp only [isWritable, hsome, Option.all_some, Option.any_some] at h
    split at h <;> simp only [Bool.and_eq_true] at h
    case h_1 | h_2 | h_3 => exact h.1
    case h_4 => exact h.1.1.1
  have htype : decl.form.isTyped = true → IsLine decl.effectiveType := by
    intro htyped
    have hany : decl.typeName.any isName = true := by
      unfold isWritable at h
      split at h <;> simp only [Bool.and_eq_true] at h
      case h_1 | h_2 | h_3 => exact h.2
      case h_4 hform => exact absurd htyped (by rw [hform]; exact Bool.false_ne_true)
    obtain ⟨type, htype, hname⟩ := (Option.any_eq_true _ _).mp hany
    rw [effectiveType, htype]
    exact isLine_of_isName hname
  unfold effectiveName at hname
  split at hname
  case h_1 given hsome =>
    obtain rfl := Except.ok.inj hname
    exact isLine_of_isName (hgiven _ hsome)
  case h_2 hform =>
    obtain rfl := Except.ok.inj hname
    exact htype (by rw [hform]; rfl)
  case h_3 hform =>
    obtain rfl := Except.ok.inj hname
    exact isLine_append.mpr ⟨htype (by rw [hform]; rfl), by decide⟩
  case h_4 | h_5 => exact absurd hname (by simp)

/-- A built design has the name that the netlist gives it. -/
theorem Builds.name_eq (h : netlist.Builds policy design) : design.name = netlist.designName :=
  h.keep (keptByBuilding_name _) fun _ => rfl

/-- The design of a writable netlist is legible, since its chosen names are identifiers. -/
theorem Builds.legible (h : netlist.Builds policy design) (hw : netlist.isWritable = true) :
    design.Legible := by
  simp only [isWritable, Bool.and_eq_true, List.all_eq_true, Option.all_eq_true] at hw
  obtain ⟨⟨⟨hname, htypes⟩, hnodes⟩, -⟩ := hw
  -- The name of the design and of its types are identifiers, and every node without a value has
  -- been declared.
  constructor
  case name =>
    rw [h.name_eq, designName]
    cases hgiven : netlist.name with
    | none => exact (by decide : IsLine "top")
    | some name => exact isLine_of_isName (hname name hgiven)
  case type =>
    intro id node hn
    have hknown := (h.typed id node hn).known
    rw [h.find?_type, Option.or_eq_some_iff] at hknown
    rcases hknown with hbuiltin | ⟨-, hdeclared⟩
    · have hnames : ∀ type ∈ DataType.builtin, IsLine type.name := by decide
      exact hnames _ (List.mem_of_find?_eq_some hbuiltin)
    · obtain ⟨decl, hmem, htype⟩ := List.mem_map.mp (List.mem_of_find?_eq_some hdeclared)
      rw [← htype]
      have hdecl := htypes decl hmem
      simp only [TypeDecl.isWritable, Bool.and_eq_true] at hdecl
      exact isLine_of_isName hdecl.1
  case chosen =>
    intro id node hn hv
    have hmem : id ∈ design.members :=
      mem_idsWhere.mpr ⟨node, hn, by rw [Node.isLiteral_eq_value?, hv]; rfl⟩
    obtain ⟨decl, hdecl, node', -, hn', hname, -⟩ := exists_left_of_mem h.members hmem
    obtain rfl := Option.some.inj (hn.symm.trans hn')
    exact NodeDecl.isLine_effectiveName (hnodes decl hdecl) hname
  case literals =>
    exact h.keep MakesLiterals.keptByBuilding fun _ id node value hn =>
      absurd hn (by simp [node?, blank, Session.start])

/-- The literals of a built design are plain if the texts that the netlist uses are. -/
theorem Builds.isPlain_iff (h : netlist.Builds policy design) :
    (∀ id node, design.node? id = some node → node.IsPlain) ↔
      ∀ text, .constant (.string text) ∈ netlist.uses → IsLine text := by
  constructor
  · intro hplain text huse
    obtain ⟨id, node, hn, hv⟩ := h.exists_holds_iff.mpr huse
    exact hplain id node hn text hv
  · intro htexts id node hn text hv
    exact htexts text (h.exists_holds_iff.mp ⟨id, node, hn, hv⟩)

/-- Whatever is read from a file can be written, since a file that is no text is refused
    beforehand. -/
theorem isWritable_of_ofFile {path : String} {contents : Except FileFault ByteArray}
    (h : ofFile path contents = .ok netlist) : netlist.isWritable = true := by
  unfold ofFile at h
  split at h
  case h_1 => exact absurd h (by simp)
  case h_2 =>
    split at h
    case h_1 => exact absurd h (by simp)
    case h_2 => exact isWritable_of_parse h

/-- The output is the listing of the design of the netlist. -/
structure Lists (netlist : Netlist) (design : Design) (output : String) : Prop where
  /-- It has the lines of the heading and of the rows, one row for each node, in order. -/
  lines : outputLines output =
    (design.heading :: design.places.map fun place => design.row place.1 place.2).flatMap textLines
  /-- The heading is one line. -/
  heading : IsLine design.heading
  /-- A row is one line if neither its node nor the driver of this is the literal of a text with a
      newline in it. -/
  row : ∀ id node, design.node? id = some node →
    (IsLine (design.row id node) ↔ node.IsPlain ∧ ∀ source driver,
      design.driver? id = some source → design.node? source = some driver → driver.IsPlain)
  /-- There is one line more than there are nodes exactly if the netlist uses no such text. -/
  length_iff : (outputLines output).length = 1 + design.nodeCount ↔
    ∀ text, .constant (.string text) ∈ netlist.uses → IsLine text
  /-- Then the lines are the heading and the rows. -/
  recovered : (∀ text, .constant (.string text) ∈ netlist.uses → IsLine text) →
    outputLines output =
      design.heading :: design.places.map fun place => design.row place.1 place.2

/-- The listing of the design of a writable netlist has the lines that it should have, row by
    row. -/
theorem Builds.lists (h : netlist.Builds policy design) (hw : netlist.isWritable = true) :
    netlist.Lists design (String.join (design.listing.map (· ++ "\n"))) := by
  have hlegible := h.legible hw
  have hlength : design.listing.length = 1 + design.nodeCount := by
    simp [listing, places, nodeCount, Nat.add_comm]
  constructor
  case lines => exact outputLines_join design.listing
  case heading => exact hlegible.isLine_heading
  case row => exact fun id node => hlegible.isLine_row
  case length_iff =>
    rw [outputLines_join, ← hlength, (length_flatMap_textLines design.listing).2,
      hlegible.lines_iff, h.isPlain_iff]
  case recovered =>
    intro htexts
    rw [outputLines_join]
    exact flatMap_textLines (hlegible.lines_iff.mpr (h.isPlain_iff.mpr htexts))

end Netlist

/-! ### The command -/

namespace Options

variable {options : Options} {contents : Except FileFault ByteArray}

/-- For every netlist that it accepts, the command puts out the listing of the design. Split at
    newlines, it gives a heading and one row for each node unless the netlist uses a text with a
    newline in it. Then it gives more. -/
theorem lists_of_execute (hquiet : options.quiet = false)
    (h : (options.execute contents).exitCode = 0) :
    ∃ netlist design, Netlist.ofFile options.path contents = .ok netlist ∧
      netlist.toDesign options.policy = .ok design ∧
      netlist.Lists design (options.execute contents).output := by
  obtain ⟨design, hdesign⟩ := exitCode_execute.mp h
  obtain ⟨netlist, hnetlist, hrest⟩ := bind_eq_ok.mp hdesign
  obtain ⟨built, hbuilt, hrest⟩ := bind_eq_ok.mp hrest
  obtain ⟨-, -, hresult⟩ := bind_eq_ok.mp hrest
  obtain rfl := Except.ok.inj hresult
  have hlists := (builds_of_toDesign hbuilt).lists (isWritable_of_ofFile hnetlist)
  refine ⟨netlist, built, hnetlist, hbuilt, ?_⟩
  simpa only [execute, hdesign, hquiet, Bool.false_eq_true, if_false] using hlists

/-- The text is shown twice, in the row of its literal and in that of the signal that this
    drives. -/
theorem lists_of_broken_rows :
    let contents : Except FileFault ByteArray :=
      .ok "signal s string\nconnect s \"a\\nb\"".toUTF8
    let outcome := execute ⟨"s.net", false, false⟩ contents
    outputLines outcome.output =
      ["graph top: 2 nodes, 1 edges", "  Signal     s                    string     <- a",
        "b                  fan-out 0", "  Literal    str:a",
        "b              string     <- -                    fan-out 1"] ∧
    outcome.exitCode = 0 ∧ ∃ netlist design, Netlist.ofFile "s.net" contents = .ok netlist ∧
      netlist.toDesign .lenient = .ok design ∧ netlist.Lists design outcome.output := by
  intro contents outcome
  have hexit : outcome.exitCode = 0 := by decide +kernel
  exact ⟨by decide +kernel, hexit, lists_of_execute rfl hexit⟩

end Options

end Schematic
