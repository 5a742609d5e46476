import Schematic.Proofs.Acceptance
import Schematic.Proofs.Grammar
import Schematic.Proofs.RoundTrip

namespace Schematic.Netlist

open Text

/-!
# What is read can be written

The netlists that come out of a text are of the kind that can be written: their names are spelled as
names, and every declaration has the parts that its form asks for. None of them is refused for a
fault of the grammar when it is built.

* `isName_of_readLexeme`, `isName_of_mem_tokenLines` — identifiers are spelled as names;
* `Form.Production.isWritable` — so that a line declares something that can be written;
* `isWritable_of_parse` — and so does a text;
* `toDesign_ne_grammar` — a netlist that can be written lacks no name that it needs.

The condition for being written has a part for each kind of declaration, and each part is what the
production of a line of this kind has checked, except for one thing: that an identifier is spelled
as a name is known from the lexer. So the spelling is carried from the characters to the tokens and
from there to the lines. An operand needs care, since the words for truth values are identifiers as
well; they are read as constants first, and so no operand that names a node is one of them.
-/

/-! ### Identifiers -/

/-- What is read as an identifier is spelled as a name: it begins with a letter or an underscore,
    and it goes on with what continues a name. -/
theorem isName_of_readLexeme {text : List Char} {word : String}
    (read : (readLexeme text).reading = .ok (.identifier, word)) : isName word = true := by
  revert read
  -- By what the first character begins. Only the start of a name leads to an identifier.
  fun_cases readLexeme text with
  | case7 c text _ _ _ _ _ start =>
    intro read
    obtain ⟨-, rfl⟩ := Prod.mk.inj (Except.ok.inj read)
    rw [isName, String.toList_ofList,
      List.takeWhile_cons_of_pos (isNameChar_of_isNameStart start)]
    exact Bool.and_eq_true_iff.mpr ⟨start, List.all_takeWhile⟩
  | case3 | case5 =>
    intro read
    simp only [readDirective, readSigned] at read
    split at read <;> simp at read
  | case4 text => cases h : (readBody text).reading <;> simp [Lexeme.extend, h, Except.map]
  | case1 | case2 | case6 | case8 => simp [readRun]

/-- Every identifier among the tokens of a text is spelled as a name. By induction on the
    reading. -/
theorem Cursor.isName_of_mem_tokens {cursor : Cursor} {token : Token}
    (hmem : token ∈ cursor.tokens.tokens) (hkind : token.kind = .identifier) :
    isName token.text = true := by
  fun_induction Cursor.tokens cursor with
  | case1 | case2 => exact absurd hmem List.not_mem_nil
  | case3 cursor first stop read _ _ following ih =>
    rcases List.mem_cons.mp hmem with rfl | hmem
    · obtain ⟨_, rfl, reading, -⟩ := lexeme_of_next read
      rw [hkind] at reading
      exact isName_of_readLexeme reading
    · exact ih hmem

/-- Every token of a line is one of the text, and it has not been changed by cutting the text into
    lines. -/
theorem mem_of_mem_splitLines {tokens line : List Token} {token : Token}
    (hline : line ∈ splitLines tokens) (hmem : token ∈ line) : token ∈ tokens := by
  fun_induction splitLines tokens generalizing line with
  | case1 => simp_all
  | case2 first tokens _ ih =>
    rcases List.mem_cons.mp hline with rfl | hline
    · exact absurd hmem List.not_mem_nil
    · exact List.mem_cons_of_mem _ (ih hline hmem)
  | case3 first tokens _ none ih => exact absurd none (splitLines_ne_nil tokens)
  | case4 first tokens _ front lines some ih =>
    rw [some] at ih
    rcases List.mem_cons.mp hline with rfl | hline
    · rcases List.mem_cons.mp hmem with rfl | hmem
      · exact List.mem_cons_self
      · exact List.mem_cons_of_mem _ (ih List.mem_cons_self hmem)
    · exact List.mem_cons_of_mem _ (ih (List.mem_cons_of_mem _ hline) hmem)

/-- Every identifier in a line of a text is spelled as a name. -/
theorem isName_of_mem_tokenLines {text : String} {line : List Token} {token : Token}
    (hline : line ∈ tokenLines text) (hmem : token ∈ line) (hkind : token.kind = .identifier) :
    isName token.text = true :=
  Cursor.isName_of_mem_tokens (mem_of_mem_splitLines hline hmem) hkind

/-! ### Lines -/

section Lines

variable {token : Token} {line : Nat} {arguments : List Token} {entry : Entry} {form : Form}

/-- The identifiers among the tokens are spelled as names. -/
def Spelled (tokens : List Token) : Prop :=
  ∀ token ∈ tokens, token.kind = .identifier → isName token.text = true

/-- Where identifiers are spelled as names, a token that names something is a name. -/
theorem Spelled.identifier {tokens : List Token} {name : String} (h : Spelled tokens)
    (hname : token.identifier = .ok name) (hmem : token ∈ tokens) : isName name = true := by
  obtain ⟨hkind, rfl⟩ := Token.identifier_eq_ok.mp hname
  exact h token hmem hkind

/-- An operand is a constant, or a name that is not the word for one. Only where it is read as no
    constant is it looked at as a name. -/
theorem Spelled.operand {tokens : List Token} {operand : Operand} (h : Spelled tokens)
    (hoperand : token.operand = .ok operand) (hmem : token ∈ tokens) :
    operand.isWritable = true := by
  unfold Token.operand at hoperand
  split at hoperand
  case h_1 =>
    obtain rfl := Except.ok.inj hoperand
    rfl
  case h_2 error hconstant =>
    obtain ⟨name, hname, rfl⟩ := map_eq_ok.mp hoperand
    obtain ⟨hkind, rfl⟩ := Token.identifier_eq_ok.mp hname
    -- The words for the truth values are read as constants.
    have htrue : token.text ≠ "true" := by
      intro htext
      simp [Token.constant, hkind, htext] at hconstant
    have hfalse : token.text ≠ "false" := by
      intro htext
      simp [Token.constant, hkind, htext] at hconstant
    simp [Operand.isWritable, h token hmem hkind, htrue, hfalse]

/-- No keyword stands for a vector. -/
theorem shape_ne_vector {text : String} {shape : Shape} (h : Shape.ofKeyword? text = some shape)
    (width : UInt32) : shape ≠ .vector width := by
  unfold Shape.ofKeyword? at h
  split at h
  case h_8 => exact absurd h (by simp)
  all_goals exact Option.some.inj h ▸ nofun

/-- A width is not zero, since zero is refused when a width is read. -/
theorem readWidth?_ne_zero {text : String} {width : UInt32} (h : readWidth? text = some width) :
    width ≠ 0 := by
  obtain ⟨value, -, hwidth⟩ := Option.bind_eq_some_iff.mp h
  split at hwidth
  case isFalse => exact absurd hwidth (by simp)
  case isTrue hrange =>
    obtain rfl := Option.some.inj hwidth
    obtain ⟨hpos, hlt⟩ := hrange
    intro hzero
    have hnat := congrArg UInt32.toNat hzero
    rw [UInt32.toNat_ofNat_of_lt' hlt] at hnat
    simp only [UInt32.toNat_zero] at hnat
    omega

/-- What a line declares can be written. The names have been read as identifiers, and everything
    else has a written form in any case. -/
theorem Form.Production.isWritable (h : form.Production line arguments entry)
    (hspelled : Spelled arguments) : entry.isWritable = true := by
  cases h with
  | graph hname => exact hspelled.identifier hname (by simp)
  | type hname hkind =>
    have hname := hspelled.identifier hname (by simp)
    simp [Entry.isWritable, TypeDecl.isWritable, hname, shape_ne_vector hkind 0]
  | vector hname _ hwidth =>
    have hname := hspelled.identifier hname (by simp)
    simp [Entry.isWritable, TypeDecl.isWritable, hname, readWidth?_ne_zero hwidth]
  | port _ htype =>
    have htype := hspelled.identifier htype (by simp)
    simp [Entry.isWritable, NodeDecl.isWritable, htype]
  | namedPort hname _ htype =>
    have hname := hspelled.identifier hname (by simp)
    have htype := hspelled.identifier htype (by simp)
    simp [Entry.isWritable, NodeDecl.isWritable, hname, htype]
  | signal htype =>
    have htype := hspelled.identifier htype (by simp)
    simp [Entry.isWritable, NodeDecl.isWritable, htype]
  | namedSignal hname htype =>
    have hname := hspelled.identifier hname (by simp)
    have htype := hspelled.identifier htype (by simp)
    simp [Entry.isWritable, NodeDecl.isWritable, hname, htype]
  | param hname htype =>
    have hname := hspelled.identifier hname (by simp)
    have htype := hspelled.identifier htype (by simp)
    simp [Entry.isWritable, NodeDecl.isWritable, hname, htype]
  | default hname htype _ =>
    have hname := hspelled.identifier hname (by simp)
    have htype := hspelled.identifier htype (by simp)
    simp [Entry.isWritable, NodeDecl.isWritable, hname, htype]
  | expr hname _ hleft hright =>
    have hname := hspelled.identifier hname (by simp)
    have hleft := hspelled.operand hleft (by simp)
    have hright := hspelled.operand hright (by simp)
    simp [Entry.isWritable, NodeDecl.isWritable, hname, hleft, hright]
  | connect hname hsource =>
    have hname := hspelled.identifier hname (by simp)
    have hsource := hspelled.operand hsource (by simp)
    simp [Entry.isWritable, Connection.isWritable, hname, hsource]

end Lines

/-! ### Texts -/

/-- Whatever the lines of a text declare can be written, if their identifiers are spelled as
    names. -/
theorem Declares.isWritable {lines : List (List Token)} {entries : List Entry}
    (h : Declares lines entries) (hspelled : ∀ line ∈ lines, Spelled line) :
    ∀ entry ∈ entries, entry.isWritable = true := by
  induction h with
  | nil => exact fun entry hmem => absurd hmem List.not_mem_nil
  | blank _ ih => exact ih fun line hline => hspelled line (List.mem_cons_of_mem _ hline)
  | line _ hentry _ ih =>
    have hfirst : Spelled _ := hspelled _ List.mem_cons_self
    refine List.forall_mem_cons.mpr ⟨?_, ?_⟩
    · exact hentry.isWritable fun token hmem => hfirst token (List.mem_cons_of_mem _ hmem)
    · exact ih fun line hline => hspelled line (List.mem_cons_of_mem _ hline)

/-- Only an entry for the name of the design has such a name. -/
theorem Entry.name?_eq_some {entry : Entry} {text : String} :
    entry.name? = some text ↔ entry = .name text := by
  cases entry <;> simp [name?]

/-- Only an entry for a type declares a type. -/
theorem Entry.type?_eq_some {entry : Entry} {decl : TypeDecl} :
    entry.type? = some decl ↔ entry = .type decl := by
  cases entry <;> simp [type?]

/-- Only an entry for a node declares a node. -/
theorem Entry.node?_eq_some {entry : Entry} {decl : NodeDecl} :
    entry.node? = some decl ↔ entry = .node decl := by
  cases entry <;> simp [node?]

/-- Only an entry for a connection makes a connection. -/
theorem Entry.connection?_eq_some {entry : Entry} {made : Connection} :
    entry.connection? = some made ↔ entry = .connection made := by
  cases entry <;> simp [connection?]

/-- A netlist can be written if all the entries that it is collected from can be, as each of its
    parts comes from one of these. -/
theorem isWritable_ofEntries {entries : List Entry}
    (h : ∀ entry ∈ entries, entry.isWritable = true) : (ofEntries entries).isWritable = true := by
  simp only [Netlist.isWritable, ofEntries, Bool.and_eq_true, Option.all_eq_true, List.all_eq_true]
  refine ⟨⟨⟨fun text hlast => ?_, fun decl hmem => ?_⟩, fun decl hmem => ?_⟩, fun made hmem => ?_⟩
  · obtain ⟨entry, hentry, hname⟩ := List.mem_filterMap.mp (List.mem_of_getLast? hlast)
    obtain rfl := Entry.name?_eq_some.mp hname
    exact h _ hentry
  · obtain ⟨entry, hentry, htype⟩ := List.mem_filterMap.mp hmem
    obtain rfl := Entry.type?_eq_some.mp htype
    exact h _ hentry
  · obtain ⟨entry, hentry, hnode⟩ := List.mem_filterMap.mp hmem
    obtain rfl := Entry.node?_eq_some.mp hnode
    exact h _ hentry
  · obtain ⟨entry, hentry, hmade⟩ := List.mem_filterMap.mp hmem
    obtain rfl := Entry.connection?_eq_some.mp hmade
    exact h _ hentry

/-- What is read can be written. -/
theorem isWritable_of_parse {text : String} {netlist : Netlist} (h : parse text = .ok netlist) :
    netlist.isWritable = true := by
  obtain ⟨-, entries, hdeclares, rfl⟩ := parse_eq_ok.mp h
  exact isWritable_ofEntries (hdeclares.isWritable fun line hline token hmem =>
    isName_of_mem_tokenLines hline hmem)

/-! ### Building -/

/-- A parameter or an expression that can be written has a name. -/
theorem NodeDecl.name_ne_none {decl : NodeDecl} (h : decl.isWritable = true)
    (hneeds : decl.form.needsName = true) : decl.name ≠ none := by
  intro hname
  unfold NodeDecl.isWritable at h
  split at h
  case h_1 hform | h_2 hform => simp [hform, NodeForm.needsName] at hneeds
  all_goals simp [hname] at h

/-- A netlist that can be written is not refused for a fault of the grammar. -/
theorem toDesign_ne_grammar {netlist : Netlist} (h : netlist.isWritable = true) (policy : Policy)
    (line : Nat) (fault : GrammarFault) :
    netlist.toDesign policy ≠ .error (.grammar line fault) := by
  intro herror
  simp only [Netlist.isWritable, Bool.and_eq_true, List.all_eq_true] at h
  obtain ⟨⟨-, hnodes⟩, -⟩ := h
  -- Only the lack of a name would be such a fault.
  cases (stops_of_toDesign herror).refusal with
  | unnamed hmem hneeds hname => exact NodeDecl.name_ne_none (hnodes _ hmem) hneeds hname

end Schematic.Netlist
