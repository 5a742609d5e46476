import Schematic.Proofs.Grammar

namespace Schematic.Netlist

/-!
# Places of quoted texts

A quoted text can stand in the places that the grammar has for constants. It can also stand in four
other places, where an argument counts by its text, of whatever kind the token is: for a direction,
for an operator, for the kind of a type and for a width. It is never a name, and never the first
word of a line.

* `Form.TakesConstant`, `Form.TakesText` — the two kinds of places among the arguments of a line;
* `Form.Production.place_of_string` — a string is in one of these places;
* `Form.Production.withKind` — where the text counts, the kind of the token does not;
* `places_of_strings` — both, for every line of an accepted text.

A production of the grammar has its arguments as tokens and says of each what is asked of it: a
name, a type name and an operand are asked for by kind and text, and a direction, an operator, the
kind of a type and a width by text alone. So the first half is a search through the productions for
the argument that is a string, in which a name is impossible (`Token.kind_ne_string`). For the
second half the same production is formed again with the other token, which the productions allow
because they never mention the kind of this argument.
-/

/-! ### Places -/

/-- The grammar has a constant in this place among the arguments of a line: as the default of a
    parameter, as an operand or as a source. -/
def Form.TakesConstant (form : Form) (place : Nat) : Prop :=
  match form with
  | .param => place = 2
  | .expr => place = 2 ∨ place = 3
  | .connect => place = 1
  | .graph | .type | .port | .signal => False

/-- Of the argument in this place, among so many, the text alone counts: it is the kind or the width
    of a type, the direction of a port, which is the last but one, or an operator. -/
def Form.TakesText (form : Form) (count place : Nat) : Prop :=
  match form with
  | .type => place = 1 ∨ place = 2
  | .port => place + 2 = count
  | .expr => place = 1
  | .graph | .signal | .param | .connect => False

/-- What stands in the place of a name is no string. -/
theorem Token.kind_ne_string {name token : Token} {text : String} (h : name.identifier = .ok text)
    (hplace : some name = some token) : token.kind ≠ .string := by
  obtain rfl := Option.some.inj hplace
  rw [(identifier_eq_ok.mp h).1]
  decide

/-- No line begins with a string. -/
theorem Entry.kind_ne_string {head : Token} {form : Form} (h : Entry.form head = .ok form) :
    head.kind ≠ .string := by
  intro hkind
  simp [Entry.form, hkind, Token.refuse] at h

namespace Form.Production

variable {form : Form} {line place : Nat} {arguments : List Token} {entry : Entry} {token : Token}

/-- A string stands where a constant can stand or where the text of an argument counts. -/
theorem place_of_string (h : form.Production line arguments entry)
    (hplace : arguments[place]? = some token) (hkind : token.kind = .string) :
    form.TakesConstant place ∨ form.TakesText arguments.length place := by
  -- What is left are the places of names, where no string can stand.
  cases h with
  | graph hname =>
    match place, hplace with
    | 0, hplace => exact absurd hkind (Token.kind_ne_string hname hplace)
  | type hname =>
    match place, hplace with
    | 0, hplace => exact absurd hkind (Token.kind_ne_string hname hplace)
    | 1, _ => exact .inr (.inl rfl)
  | vector hname =>
    match place, hplace with
    | 0, hplace => exact absurd hkind (Token.kind_ne_string hname hplace)
    | 1, _ => exact .inr (.inl rfl)
    | 2, _ => exact .inr (.inr rfl)
  | port _ htype =>
    match place, hplace with
    | 0, _ => exact .inr rfl
    | 1, hplace => exact absurd hkind (Token.kind_ne_string htype hplace)
  | namedPort hname _ htype =>
    match place, hplace with
    | 0, hplace => exact absurd hkind (Token.kind_ne_string hname hplace)
    | 1, _ => exact .inr rfl
    | 2, hplace => exact absurd hkind (Token.kind_ne_string htype hplace)
  | signal htype =>
    match place, hplace with
    | 0, hplace => exact absurd hkind (Token.kind_ne_string htype hplace)
  | namedSignal hname htype | param hname htype =>
    match place, hplace with
    | 0, hplace => exact absurd hkind (Token.kind_ne_string hname hplace)
    | 1, hplace => exact absurd hkind (Token.kind_ne_string htype hplace)
  | default hname htype =>
    match place, hplace with
    | 0, hplace => exact absurd hkind (Token.kind_ne_string hname hplace)
    | 1, hplace => exact absurd hkind (Token.kind_ne_string htype hplace)
    | 2, _ => exact .inl rfl
  | expr hname =>
    match place, hplace with
    | 0, hplace => exact absurd hkind (Token.kind_ne_string hname hplace)
    | 1, _ => exact .inr rfl
    | 2, _ => exact .inl (.inl rfl)
    | 3, _ => exact .inl (.inr rfl)
  | connect hname =>
    match place, hplace with
    | 0, hplace => exact absurd hkind (Token.kind_ne_string hname hplace)
    | 1, _ => exact .inl rfl

/-- Where the text of an argument counts, a token of any kind with this text is accepted and means
    the same. -/
theorem withKind (h : form.Production line arguments entry)
    (htext : form.TakesText arguments.length place) (hplace : arguments[place]? = some token)
    (kind : TokenKind) :
    form.Production line (arguments.set place { token with kind }) entry := by
  -- The conditions of a production on such an argument are about its text, and stay as they are.
  cases h with
  | graph | signal | namedSignal | param | default | connect => exact htext.elim
  | type hname hkind =>
    match place, htext with
    | 1, _ => exact Option.some.inj hplace ▸ .type hname hkind
  | vector hname hkind hwidth =>
    match place, htext with
    | 1, _ | 2, _ => exact Option.some.inj hplace ▸ .vector hname hkind hwidth
  | port hdirection htype =>
    match place, htext with
    | 0, _ => exact Option.some.inj hplace ▸ .port hdirection htype
  | namedPort hname hdirection htype =>
    match place, htext with
    | 1, _ => exact Option.some.inj hplace ▸ .namedPort hname hdirection htype
  | expr hname hop hleft hright =>
    match place, htext with
    | 1, _ => exact Option.some.inj hplace ▸ .expr hname hop hleft hright

end Form.Production

/-! ### Accepted texts -/

/-- On a line of an accepted text, a string is the default of a parameter, an operand or a source,
    or else it stands where only the text of an argument counts. There, the line declares the same
    with the argument quoted and unquoted. -/
theorem places_of_strings {text : String} {netlist : Netlist} (h : parse text = .ok netlist)
    {head : Token} {arguments : List Token} (hline : head :: arguments ∈ tokenLines text) :
    head.kind ≠ .string ∧
      ∃ form entry, Entry.form head = .ok form ∧ Entry.read head arguments = .ok entry ∧
        ∀ place token, arguments[place]? = some token →
          (token.kind = .string →
            form.TakesConstant place ∨ form.TakesText arguments.length place) ∧
          (form.TakesText arguments.length place → ∀ kind,
            Entry.read head (arguments.set place { token with kind }) = .ok entry) := by
  obtain ⟨-, entries, hdeclares, -⟩ := parse_eq_ok.mp h
  obtain ⟨form, entry, hform, hentry, -⟩ := hdeclares.production_of_mem hline
  have hread := Entry.read_eq_ok.mpr ⟨form, hform, hentry⟩
  refine ⟨Entry.kind_ne_string hform, form, entry, hform, hread, fun place token hplace => ?_⟩
  refine ⟨hentry.place_of_string hplace, fun htext kind => ?_⟩
  exact Entry.read_eq_ok.mpr ⟨form, hform, hentry.withKind htext hplace kind⟩

/-- A netlist with a quoted kind, a quoted width, a quoted direction and a quoted operator. The
    direction is no constant, and its line declares the same without the quotes. -/
theorem places_of_quoted_direction :
    let text := ".type t \"vector\" \"8\"\nport p \"in\" t\nexpr e \"+\" 1 2"
    let head : Token := ⟨.identifier, "port", ⟨2, 1⟩⟩
    let name : Token := ⟨.identifier, "p", ⟨2, 6⟩⟩
    let word : Token := ⟨.string, "in", ⟨2, 8⟩⟩
    let type : Token := ⟨.identifier, "t", ⟨2, 13⟩⟩
    parse text = .ok
      { types := [⟨"t", .vector 8, 1⟩]
        nodes := [⟨some "p", .port .input, some "t", 2⟩,
          ⟨some "e", .expression .add (.constant (.int 1)) (.constant (.int 2)), none, 3⟩] } ∧
    [head, name, word, type] ∈ tokenLines text ∧ ¬ Form.port.TakesConstant 1 ∧
    ∃ form entry, Entry.form head = .ok form ∧ form.TakesText 3 1 ∧
      Entry.read head [name, word, type] = .ok entry ∧
      Entry.read head [name, { word with kind := .identifier }, type] = .ok entry := by
  intro text head name word type
  have hparse : parse text = .ok
      { types := [⟨"t", .vector 8, 1⟩]
        nodes := [⟨some "p", .port .input, some "t", 2⟩,
          ⟨some "e", .expression .add (.constant (.int 1)) (.constant (.int 2)), none, 3⟩] } := by
    decide +kernel
  have hline : [head, name, word, type] ∈ tokenLines text := by decide +kernel
  have hport : Entry.form head = .ok .port := by decide +kernel
  obtain ⟨-, form, entry, hform, hread, hplaces⟩ := places_of_strings hparse hline
  obtain rfl : Form.port = form := Except.ok.inj (hport.symm.trans hform)
  obtain ⟨hstring, hkind⟩ := hplaces 1 word rfl
  have htext := (hstring rfl).resolve_left id
  exact ⟨hparse, hline, id, .port, entry, hform, htext, hread, hkind htext .identifier⟩

end Schematic.Netlist
