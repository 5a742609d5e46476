import Schematic.Proofs.Grammar
import Schematic.Proofs.Recasing

namespace Schematic

open Netlist Text

/-!
# Keywords in another case

Keywords can be written in upper and in lower case, and nothing else can. The first word of a line
is a keyword, and so is the direction of a port, the operator of an expression and the kind of a
type. With these in another case, a text declares the same, or it is refused on the same line. If
anything else in a line that declares something is in another case, then the line declares something
else or is refused.

* `SameVerdict` — the same outcome, or errors on the same line;
* `Form.TakesKeyword`, `IsKeyword` — the places of keywords in a line;
* `Form.read_recased`, `parseLine_recased` — lines with their keywords in another case;
* `Form.Production.sameButKeyword` — lines with anything in another case that declare the same;
* `keywords_in_any_case` — both, for whole texts.

In the first direction two readings go side by side. Every reader is a sequence of checks, and
`SameVerdict` passes through sequences as equality does; where a keyword is looked at, both readings
find the same, and everywhere else they look at the same token. In the second direction two
productions are compared that declare the same. A name, a constant or an operand that is declared
tells its token up to the case of letters and in this case too, whereas a keyword is forgotten once
it is understood. So where the two lines differ there is a keyword.
-/

/-! ### Verdicts -/

/-- The outcomes are the same, or both are faults of the grammar on the same line. -/
inductive SameVerdict {α : Type} : Except Error α → Except Error α → Prop
  | same (outcome : Except Error α) : SameVerdict outcome outcome
  | reworded (line : Nat) (fault other : GrammarFault) :
      SameVerdict (.error (.grammar line fault)) (.error (.grammar line other))

namespace SameVerdict

variable {α β : Type} {first second : Except Error α}

/-- Two sequences have the same verdict if their first steps have, and their second ones for every
    value that the first ones give. -/
theorem bind {next next' : α → Except Error β} (h : SameVerdict first second)
    (hnext : ∀ value, first = .ok value → SameVerdict (next value) (next' value)) :
    SameVerdict (first >>= next) (second >>= next') := by
  cases h with
  | same =>
    cases first with
    | ok value => exact hnext value rfl
    | error error => exact .same (.error error)
  | reworded line fault other => exact .reworded line fault other

/-- A function of the value keeps the verdicts the same. -/
theorem map (f : α → β) (h : SameVerdict first second) :
    SameVerdict (first.map f) (second.map f) := by
  cases h with
  | same => exact .same _
  | reworded line fault other => exact .reworded line fault other

/-- A success is met with the same success. -/
theorem eq_ok {value : α} (h : SameVerdict first second) (hfirst : first = .ok value) :
    second = .ok value := by
  cases h with
  | same => exact hfirst
  | reworded => exact absurd hfirst (by simp)

end SameVerdict

/-- Where a value is missing, the line is what counts, and not what is said about it. -/
theorem orFault_verdict {α : Type} (line : Nat) (fault other : GrammarFault) (found : Option α) :
    SameVerdict (orFault line fault found) (orFault line other found) := by
  cases found with
  | some value => exact .same (.ok value)
  | none => exact .reworded line fault other

namespace Netlist

/-! ### Places -/

/-- Of so many arguments of a line of this form, the one in this place is a keyword: the last but
    one of a port, and the second one of a type or of an expression. -/
def Form.TakesKeyword (form : Form) (count place : Nat) : Prop :=
  match form with
  | .port => place + 2 = count
  | .type | .expr => place = 1
  | .graph | .signal | .param | .connect => False

/-- The token in this place of a line is a keyword: it is the first one, or the form of the line has
    a keyword there. -/
inductive IsKeyword : List Token → Nat → Prop
  | first (line : List Token) : IsKeyword line 0
  | argument {head : Token} {arguments : List Token} {form : Form} {place : Nat}
      (hform : Entry.form head = .ok form) (hplace : form.TakesKeyword arguments.length place) :
      IsKeyword (head :: arguments) (place + 1)

/-- The arguments differ in the keyword at most. -/
def Form.SameButKeyword (form : Form) (arguments others : List Token) : Prop :=
  ∀ place token, arguments[place]? = some token →
    others[place]? = some token ∨ form.TakesKeyword arguments.length place

/-- The lines differ in unquoted keywords at most. -/
def SameButKeywords (tokens others : List Token) : Prop :=
  ∀ place token, tokens[place]? = some token →
    others[place]? = some token ∨ IsKeyword tokens place ∧ token.kind ≠ .string

/-! ### Keywords in another case -/

section Keywords

variable {line : Nat} {head other : Token} {arguments others : List Token}

/-- Tokens with the same letters have the same ASCII lower case. -/
theorem Token.Recased.toLower_eq (h : head.Recased other) :
    head.text.toLower = other.text.toLower := h.letters.toLower_eq

/-- The form of a line does not depend on the case of its first token. -/
theorem Entry.form_recased (h : head.Recased other) :
    SameVerdict (Entry.form head) (Entry.form other) := by
  have hword := h.letters.lowercase_eq
  have hline : other.line = head.line := congrArg Position.line h.position
  simp only [Entry.form, h.kind, hword, hline]
  split
  · exact orFault_verdict _ _ _ _
  · exact orFault_verdict _ _ _ _
  · rw [Token.refuse, Token.refuse, hline]
    exact .reworded _ _ _

namespace Form

variable {form : Form}

/-- What is not in the place of a keyword is the same in both lines. -/
theorem SameButKeyword.getElem?_eq (h : form.SameButKeyword arguments others)
    (hlength : arguments.length = others.length) {place : Nat}
    (hplace : ¬ form.TakesKeyword arguments.length place) : others[place]? = arguments[place]? := by
  cases hget : arguments[place]? with
  | some token => exact (h place token hget).resolve_right hplace
  | none =>
    rw [List.getElem?_eq_none_iff] at hget ⊢
    omega

/-- A type with its kind in another case is the same type, or refused with the same error. The name
    and the width are as they were, since only the kind is a keyword. -/
theorem readType_recased (h : List.Forall₂ Token.Recased arguments others)
    (hsame : Form.type.SameButKeyword arguments others) :
    SameVerdict (readType line arguments) (readType line others) := by
  have hplain (place : Nat) (hplace : place ≠ 1) : others[place]? = arguments[place]? :=
    hsame.getElem?_eq h.length_eq hplace
  -- By the number of arguments, which is the same in both lines.
  match arguments, others, h with
  | [], [], _ => exact .same _
  | [_], [_], _ => exact .same (.error (.grammar line (.malformed .type)))
  | [name, kind], [name', kind'], .cons _ (.cons hkind .nil) =>
    obtain rfl : name' = name := Option.some.inj (hplain 0 (by decide))
    have hshape : Shape.ofKeyword? kind'.text = Shape.ofKeyword? kind.text := by
      simp only [Shape.ofKeyword?, hkind.toLower_eq]
    rw [readType, readType, hshape]
    exact (orFault_verdict line _ _ _).bind fun _ _ => .same _
  | [name, kind, width], [name', kind', width'], .cons _ (.cons hkind _) =>
    obtain rfl : name' = name := Option.some.inj (hplain 0 (by decide))
    obtain rfl : width' = width := Option.some.inj (hplain 2 (by decide))
    rw [readType, readType, hkind.toLower_eq]
    exact .same _
  | _ :: _ :: _ :: _ :: _, _ :: _ :: _ :: _ :: _, _ =>
    exact .same (.error (.grammar line (.malformed .type)))

/-- The part of a port behind its name, with the direction in another case. -/
theorem readPortOf_recased {word word' : Token} (h : word.Recased word') (name : Option String)
    (typeName : Token) :
    SameVerdict (readPortOf line name word typeName) (readPortOf line name word' typeName) := by
  have hdirection : Direction.ofKeyword? word'.text = Direction.ofKeyword? word.text := by
    simp only [Direction.ofKeyword?, h.toLower_eq]
  rw [readPortOf, readPortOf, hdirection]
  exact (orFault_verdict line _ _ _).bind fun _ _ => .same _

/-- A port with its direction in another case is the same port, or refused with the same error. The
    direction is the last argument but one, whether the port has a name or not. -/
theorem readPort_recased (h : List.Forall₂ Token.Recased arguments others)
    (hsame : Form.port.SameButKeyword arguments others) :
    SameVerdict (readPort line arguments) (readPort line others) := by
  have hplain (place : Nat) (hplace : place + 2 ≠ arguments.length) :
      others[place]? = arguments[place]? := hsame.getElem?_eq h.length_eq hplace
  match arguments, others, h with
  | [], [], _ => exact .same _
  | [_], [_], _ => exact .same (.error (.grammar line (.malformed .port)))
  | [word, typeName], [word', typeName'], .cons hword _ =>
    obtain rfl : typeName' = typeName := Option.some.inj (hplain 1 (by simp))
    exact readPortOf_recased hword none typeName'
  | [name, word, typeName], [name', word', typeName'], .cons _ (.cons hword _) =>
    obtain rfl : name' = name := Option.some.inj (hplain 0 (by simp))
    obtain rfl : typeName' = typeName := Option.some.inj (hplain 2 (by simp))
    exact (SameVerdict.same _).bind fun text _ => readPortOf_recased hword text typeName'
  | _ :: _ :: _ :: _ :: _, _ :: _ :: _ :: _ :: _, _ =>
    exact .same (.error (.grammar line (.malformed .port)))

/-- An expression with its operator in another case is the same expression, or refused with the same
    error. The operands are as they were, even where they are the words for truth values. -/
theorem readExpr_recased (h : List.Forall₂ Token.Recased arguments others)
    (hsame : Form.expr.SameButKeyword arguments others) :
    SameVerdict (readExpr line arguments) (readExpr line others) := by
  have hplain (place : Nat) (hplace : place ≠ 1) : others[place]? = arguments[place]? :=
    hsame.getElem?_eq h.length_eq hplace
  match arguments, others, h with
  | [], [], _ => exact .same _
  | [_], [_], _ | [_, _], [_, _], _ | [_, _, _], [_, _, _], _
  | _ :: _ :: _ :: _ :: _ :: _, _ :: _ :: _ :: _ :: _ :: _, _ =>
    exact .same (.error (.grammar line (.malformed .expr)))
  | [name, word, lhs, rhs], [name', word', lhs', rhs'], .cons _ (.cons hword _) =>
    obtain rfl : name' = name := Option.some.inj (hplain 0 (by decide))
    obtain rfl : lhs' = lhs := Option.some.inj (hplain 2 (by decide))
    obtain rfl : rhs' = rhs := Option.some.inj (hplain 3 (by decide))
    have hoperator : Operator.ofKeyword? word'.text = Operator.ofKeyword? word.text := by
      simp only [Operator.ofKeyword?, hword.toLower_eq]
    rw [readExpr, readExpr, hoperator]
    exact (orFault_verdict line _ _ _).bind fun _ _ => .same _

/-- A line of a form is read in the same way with its keyword in another case. -/
theorem read_recased (h : List.Forall₂ Token.Recased arguments others)
    (hsame : form.SameButKeyword arguments others) (line : Nat) :
    SameVerdict (form.read line arguments) (form.read line others) := by
  cases form with
  | type => exact readType_recased h hsame
  | port => exact readPort_recased h hsame
  | expr => exact readExpr_recased h hsame
  | graph | signal | param | connect =>
    -- There is no keyword among the arguments.
    rw [List.ext_getElem? fun place => hsame.getElem?_eq h.length_eq id]
    exact .same _

end Form

/-- A line is read in the same way with its keywords in another case. The first token gives the same
    form, and the form reads its arguments alike, both with the same error if they are refused. -/
theorem parseLine_recased {line other : List Token} (h : List.Forall₂ Token.Recased line other)
    (hsame : SameButKeywords line other) :
    SameVerdict (parseLine none line) (parseLine none other) := by
  cases h with
  | nil => exact .same _
  | @cons head head' arguments arguments' hhead harguments =>
    have hline : head'.line = head.line := congrArg Position.line hhead.position
    refine .map _ ((Entry.form_recased hhead).bind fun form hform => ?_)
    rw [hline]
    refine Form.read_recased harguments (fun place token hplace => ?_) head.line
    refine (hsame (place + 1) token hplace).imp_right ?_
    rintro ⟨hkeyword, -⟩
    cases hkeyword with
    | argument hform' hkeyword =>
      obtain rfl := Except.ok.inj (hform.symm.trans hform')
      exact hkeyword

/-- Lines are read in the same way with their keywords in another case. -/
theorem parseLines_recased {lines others : List (List Token)}
    (h : List.Forall₂ (List.Forall₂ Token.Recased) lines others)
    (hsame : List.Forall₂ SameButKeywords lines others) :
    SameVerdict (parseLines none lines) (parseLines none others) := by
  induction h with
  | nil => exact .same _
  | @cons line other lines others hline _ ih =>
    obtain ⟨hfirst, hrest⟩ := List.forall₂_cons.mp hsame
    rw [parseLines_cons (.inr rfl), parseLines_cons (.inr rfl)]
    exact (parseLine_recased hline hfirst).bind fun entry _ =>
      (ih hrest).bind fun entries _ => .same _

end Keywords

/-! ### Anything in another case -/

namespace Token

variable {token other : Token}

/-- Two identifiers are constants, and each of them is written in one case only. So the value tells
    how the token is spelled. -/
theorem text_of_constant {value : Constant} (hkind : token.kind = .identifier)
    (h : token.constant = .ok value) :
    token.text = if value = .bool true then "true" else "false" := by
  simp only [constant, hkind] at h
  split at h
  · next htrue => rw [htrue, ← Except.ok.inj h, if_pos rfl]
  · split at h
    · next hfalse => rw [hfalse, ← Except.ok.inj h, if_neg (by simp)]
    · exact absurd h (by simp [refuse])

/-- An operand is read as a constant, or else as the name of a node. -/
theorem constant_or_identifier {operand : Operand} (h : token.operand = .ok operand) :
    (∃ value, operand = .constant value ∧ token.constant = .ok value) ∨
      ∃ name, operand = .node name ∧ token.identifier = .ok name := by
  rw [Token.operand] at h
  split at h
  · next value hvalue => exact .inl ⟨value, (Except.ok.inj h).symm, hvalue⟩
  · obtain ⟨name, hname, rfl⟩ := map_eq_ok.mp h
    exact .inr ⟨name, rfl, hname⟩

namespace Recased

/-- A token in another case with the same text is the same token. -/
theorem eq_of_text (h : token.Recased other) (htext : other.text = token.text) : other = token := by
  obtain ⟨hkind, hposition, -⟩ := h
  cases token
  cases other
  simp_all

/-- A name in another case is another name. -/
theorem eq_of_identifier {name : String} (h : token.Recased other)
    (htoken : token.identifier = .ok name) (hother : other.identifier = .ok name) : other = token :=
  h.eq_of_text ((identifier_eq_ok.mp hother).2.trans (identifier_eq_ok.mp htoken).2.symm)

/-- An integer has no other case. -/
theorem eq_of_readInt64? {value : Int64} (h : token.Recased other)
    (hread : readInt64? token.text = some value) : other = token :=
  h.eq_of_text (String.toList_inj.mp
    (h.letters.eq_of_not_letters (isAlpha_of_readInt64? hread)).symm)

/-- A width has no other case. -/
theorem eq_of_readWidth? {width : UInt32} (h : token.Recased other)
    (hread : readWidth? token.text = some width) : other = token := by
  obtain ⟨value, hvalue, -⟩ := Option.bind_eq_some_iff.mp hread
  exact h.eq_of_readInt64? hvalue

/-- A constant in another case is another constant, or none: an integer has no letters, and a string
    and a truth value are told apart from others by theirs. -/
theorem eq_of_constant {value : Constant} (h : token.Recased other)
    (htoken : token.constant = .ok value) (hother : other.constant = .ok value) :
    other = token := by
  -- By the kind of the token, which is the same in both cases. A string and a word keep their case.
  cases hkind : token.kind with
  | number =>
    simp only [constant, hkind] at htoken
    split at htoken
    · next hread => exact h.eq_of_readInt64? hread
    · exact absurd htoken (by simp [refuse])
  | string =>
    simp only [constant, h.kind, hkind, Except.ok.injEq] at htoken hother
    exact h.eq_of_text (Constant.string.inj (hother.trans htoken.symm))
  | identifier =>
    rw [h.eq_of_text]
    rw [text_of_constant hkind htoken, text_of_constant (h.kind.trans hkind) hother]
  | directive | newline | endOfInput =>
    simp only [constant, hkind] at htoken
    exact absurd htoken (by simp [refuse])

/-- An operand in another case is another operand, be it a name or a constant. If both mean the
    same, they are the same token. -/
theorem eq_of_operand {operand : Operand} (h : token.Recased other)
    (htoken : token.operand = .ok operand) (hother : other.operand = .ok operand) :
    other = token := by
  rcases constant_or_identifier htoken with ⟨value, rfl, hvalue⟩ | ⟨name, rfl, hname⟩
  · rcases constant_or_identifier hother with ⟨value', heq, hvalue'⟩ | ⟨name', heq, hname'⟩
    · exact h.eq_of_constant hvalue (Operand.constant.inj heq ▸ hvalue')
    · exact absurd heq (by simp)
  · rcases constant_or_identifier hother with ⟨value', heq, hvalue'⟩ | ⟨name', heq, hname'⟩
    · exact absurd heq (by simp)
    · exact h.eq_of_identifier hname (Operand.node.inj heq ▸ hname')

end Recased

end Token

namespace Form

/-- A line differs from itself in no place. -/
theorem SameButKeyword.refl (form : Form) (arguments : List Token) :
    form.SameButKeyword arguments arguments :=
  fun _ _ => .inl

/-- A line with another keyword differs in the keyword at most. -/
theorem SameButKeyword.set (form : Form) (arguments : List Token) (place : Nat)
    (hplace : form.TakesKeyword arguments.length place) (keyword : Token) :
    form.SameButKeyword arguments (arguments.set place keyword) := by
  intro place' token htoken
  by_cases heq : place = place'
  · exact .inr (heq ▸ hplace)
  · rw [List.getElem?_set_ne heq]
    exact .inl htoken

/-- If the arguments of a line declare the same in another case, only the keyword is in another
    case. -/
theorem Production.sameButKeyword {form : Form} {line : Nat} {arguments others : List Token}
    {entry : Entry} (h : form.Production line arguments entry)
    (h' : form.Production line others entry)
    (hrecased : List.Forall₂ Token.Recased arguments others) :
    form.SameButKeyword arguments others := by
  -- Both lines are of the same production, since they declare the same with as many arguments.
  cases h with
  | graph hname =>
    cases h' with
    | graph hname' =>
      match hrecased with
      | .cons h₀ .nil =>
        obtain rfl := h₀.eq_of_identifier hname hname'
        exact .refl _ _
  | type hname =>
    cases h' with
    | type hname' =>
      match hrecased with
      | .cons h₀ (.cons _ .nil) =>
        obtain rfl := h₀.eq_of_identifier hname hname'
        exact .set .type [_, _] 1 rfl _
    | vector => nomatch hrecased
  | vector hname _ hwidth =>
    cases h' with
    | vector hname' =>
      match hrecased with
      | .cons h₀ (.cons _ (.cons h₂ .nil)) =>
        obtain rfl := h₀.eq_of_identifier hname hname'
        obtain rfl := h₂.eq_of_readWidth? hwidth
        exact .set .type [_, _, _] 1 rfl _
    | type => nomatch hrecased
  | port _ htype =>
    cases h' with
    | port _ htype' =>
      match hrecased with
      | .cons _ (.cons h₁ .nil) =>
        obtain rfl := h₁.eq_of_identifier htype htype'
        exact .set .port [_, _] 0 rfl _
  | namedPort hname _ htype =>
    cases h' with
    | namedPort hname' _ htype' =>
      match hrecased with
      | .cons h₀ (.cons _ (.cons h₂ .nil)) =>
        obtain rfl := h₀.eq_of_identifier hname hname'
        obtain rfl := h₂.eq_of_identifier htype htype'
        exact .set .port [_, _, _] 1 rfl _
  | signal htype =>
    cases h' with
    | signal htype' =>
      match hrecased with
      | .cons h₀ .nil =>
        obtain rfl := h₀.eq_of_identifier htype htype'
        exact .refl _ _
  | namedSignal hname htype =>
    cases h' with
    | namedSignal hname' htype' =>
      match hrecased with
      | .cons h₀ (.cons h₁ .nil) =>
        obtain rfl := h₀.eq_of_identifier hname hname'
        obtain rfl := h₁.eq_of_identifier htype htype'
        exact .refl _ _
  | param hname htype =>
    cases h' with
    | param hname' htype' =>
      match hrecased with
      | .cons h₀ (.cons h₁ .nil) =>
        obtain rfl := h₀.eq_of_identifier hname hname'
        obtain rfl := h₁.eq_of_identifier htype htype'
        exact .refl _ _
  | default hname htype hdefault =>
    cases h' with
    | default hname' htype' hdefault' =>
      match hrecased with
      | .cons h₀ (.cons h₁ (.cons h₂ .nil)) =>
        obtain rfl := h₀.eq_of_identifier hname hname'
        obtain rfl := h₁.eq_of_identifier htype htype'
        obtain rfl := h₂.eq_of_constant hdefault hdefault'
        exact .refl _ _
  | expr hname _ hleft hright =>
    cases h' with
    | expr hname' _ hleft' hright' =>
      match hrecased with
      | .cons h₀ (.cons _ (.cons h₂ (.cons h₃ .nil))) =>
        obtain rfl := h₀.eq_of_identifier hname hname'
        obtain rfl := h₂.eq_of_operand hleft hleft'
        obtain rfl := h₃.eq_of_operand hright hright'
        exact .set .expr [_, _, _, _] 1 rfl _
  | connect hname hsource =>
    cases h' with
    | connect hname' hsource' =>
      match hrecased with
      | .cons h₀ (.cons h₁ .nil) =>
        obtain rfl := h₀.eq_of_identifier hname hname'
        obtain rfl := h₁.eq_of_operand hsource hsource'
        exact .refl _ _

end Form

/-- If a line that declares something declares the same in another case, only keywords are in
    another case. What is not a keyword is part of the entry, in the case in which it is written. -/
theorem isKeyword_of_parseLine {tokens others : List Token} {entry : Entry}
    (hrecased : List.Forall₂ Token.Recased tokens others)
    (h : parseLine none tokens = .ok (some entry)) (h' : parseLine none others = .ok (some entry))
    {place : Nat} {token : Token} (hplace : tokens[place]? = some token) :
    others[place]? = some token ∨ IsKeyword tokens place := by
  cases hrecased with
  | nil => exact absurd hplace (by simp)
  | @cons head head' arguments arguments' hhead harguments =>
    obtain ⟨_, hread, ⟨⟩⟩ := map_eq_ok.mp h
    obtain ⟨_, hread', ⟨⟩⟩ := map_eq_ok.mp h'
    obtain ⟨form, hform, hentry⟩ := Entry.read_eq_ok.mp hread
    obtain ⟨form', hform', hentry'⟩ := Entry.read_eq_ok.mp hread'
    have hline : head'.line = head.line := congrArg Position.line hhead.position
    obtain rfl := Except.ok.inj (((Entry.form_recased hhead).eq_ok hform).symm.trans hform')
    rw [hline] at hentry'
    -- The first token of a line is always a keyword, and the others are arguments of the form.
    cases place with
    | zero => exact .inr (.first _)
    | succ place =>
      exact (hentry.sameButKeyword hentry' harguments place token hplace).imp_right
        (.argument hform)

/-! ### Texts -/

namespace Recasing

variable {text : String} {recasing : Recasing text} {last : Token}

/-- The text has no more than unquoted keywords in another case. -/
def OnlyKeywords (recasing : Recasing text) : Prop :=
  List.Forall₂ SameButKeywords (tokenLines text) (tokenLines recasing.result)

/-- The lines of a recased text are the recased lines of the text. -/
theorem tokenLines_recased (h : (Cursor.ofText text).Lexes recasing.tokens last) :
    List.Forall₂ (List.Forall₂ Token.Recased) (tokenLines text) (tokenLines recasing.result) := by
  rw [tokenLines, tokenLines, h.tokens_eq, (recasing.lexes h).tokens_eq]
  exact splitLines_recased recasing.tokens_recased

end Recasing

/-- A text that is read up to its end has no lexical fault, so that its lines decide. -/
theorem readEntries_of_lexes {text : String} {tokens : List Token} {last : Token}
    (h : (Cursor.ofText text).Lexes tokens last) :
    readEntries (.ofText text) = parseLines none (tokenLines text) := by
  rw [readEntries, tokenLines, h.tokens_eq]

/-- Let a text be read up to its end, and let letters of its tokens be in another case. If no more
    than unquoted keywords are in another case, then both texts declare the same, or both are
    refused on the same line. If a line declares something, and the same in the other case, then no
    more than keywords of this line are in another case. -/
theorem keywords_in_any_case {text : String} (recasing : Recasing text) {last : Token}
    (h : (Cursor.ofText text).Lexes recasing.tokens last) :
    (recasing.OnlyKeywords → SameVerdict (parse text) (parse recasing.result)) ∧
    ∀ (number : Nat) (tokens others : List Token) (entry : Entry),
      (tokenLines text)[number]? = some tokens →
      (tokenLines recasing.result)[number]? = some others →
      parseLine none tokens = .ok (some entry) → parseLine none others = .ok (some entry) →
      ∀ (place : Nat) (token : Token), tokens[place]? = some token →
        others[place]? = some token ∨ IsKeyword tokens place := by
  have hrecased := Recasing.tokenLines_recased h
  constructor
  · intro hkeywords
    rw [parse_eq, parse_eq, readEntries_of_lexes h, readEntries_of_lexes (recasing.lexes h)]
    exact (parseLines_recased hrecased hkeywords).map ofEntries
  · intro number tokens others entry htokens hothers hread hread' place token
    obtain ⟨hlt, rfl⟩ := List.getElem?_eq_some_iff.mp htokens
    obtain ⟨hlt', rfl⟩ := List.getElem?_eq_some_iff.mp hothers
    exact isKeyword_of_parseLine (hrecased.get hlt hlt') hread hread'

/-- A port with two keywords in upper case, in front of a comment that stays as it is. The word in
    the comment is no keyword, as it is no token. -/
theorem keywords_of_capital_port :
    let text := "port in bit # in"
    let other := "PORT In bit # in"
    let line : List Token := [⟨.identifier, "port", ⟨1, 1⟩⟩, ⟨.identifier, "in", ⟨1, 6⟩⟩,
      ⟨.identifier, "bit", ⟨1, 9⟩⟩]
    ∃ (recasing : Recasing text) (last : Token),
      (Cursor.ofText text).Lexes recasing.tokens last ∧ recasing.result = other ∧
      recasing.OnlyKeywords ∧
      parse other = .ok { nodes := [⟨none, .port .input, some "bit", 1⟩] } ∧ IsKeyword line 1 := by
  intro text other line
  let capital : List Token := [⟨.identifier, "PORT", ⟨1, 1⟩⟩, ⟨.identifier, "In", ⟨1, 6⟩⟩,
    ⟨.identifier, "bit", ⟨1, 9⟩⟩]
  let head : Piece := ⟨[], "port".toList, ⟨.identifier, "port", ⟨1, 1⟩⟩⟩
  let word : Piece := ⟨[' '], "in".toList, ⟨.identifier, "in", ⟨1, 6⟩⟩⟩
  let type : Piece := ⟨[' '], "bit".toList, ⟨.identifier, "bit", ⟨1, 9⟩⟩⟩
  -- The text and the other text, piece by piece.
  have hspace {rest : List Char} : IsGap rest [' '] := .blank (.inl rfl) .nil
  have hgap : IsGap [] (' ' :: '#' :: " in".toList) :=
    .blank (.inl rfl) (.comment (.inl rfl) (by decide) (by simp))
  have htext : text.toList =
      head.text ++ (word.text ++ (type.text ++ ' ' :: '#' :: " in".toList)) := by decide
  have hlayout : Layout [] text.toList [head, word, type] (' ' :: '#' :: " in".toList) := by
    rw [htext]
    exact .cons ⟨.nil, rfl, rfl⟩ (.cons ⟨hspace, rfl, rfl⟩ (.cons ⟨hspace, rfl, rfl⟩ (.nil hgap)))
  let recasing : Recasing text :=
    { pieces := [head, word, type]
      others := [head.respell "PORT".toList, word.respell "In".toList, type]
      gap := ' ' :: '#' :: " in".toList
      layout := hlayout
      recased := .cons (.respell rfl (by decide) (by decide))
        (.cons (.respell rfl (by decide) (by decide)) (.cons (.refl rfl) .nil)) }
  have hresult : recasing.result = other := rfl
  -- What the two texts are read as.
  have hread : (Cursor.ofText text).tokens = ⟨line, none⟩ := by decide +kernel
  have hlines : tokenLines text = [line] := by rw [tokenLines, hread]; rfl
  have hlines' : tokenLines recasing.result = [capital] := by rw [hresult]; decide +kernel
  have hfault : (Cursor.ofText text).tokens.fault = none := by rw [hread]
  obtain ⟨last, h⟩ := Cursor.exists_lexes hfault
  rw [hread] at h
  have hport : Entry.form ⟨.identifier, "port", ⟨1, 1⟩⟩ = .ok .port := by decide +kernel
  have hkeywords : recasing.OnlyKeywords := by
    rw [Recasing.OnlyKeywords, hlines, hlines']
    refine .cons (fun place token hplace => ?_) .nil
    match place, hplace with
    | 0, hplace => exact .inr ⟨.first _, Option.some.inj hplace ▸ by decide⟩
    | 1, hplace => exact .inr ⟨.argument hport rfl, Option.some.inj hplace ▸ by decide⟩
    | 2, hplace => exact .inl hplace
  obtain ⟨hparse, hline⟩ := keywords_in_any_case recasing h
  have hentry : parseLine none line =
      .ok (some (.node ⟨none, .port .input, some "bit", 1⟩)) := by decide +kernel
  have hentry' : parseLine none capital =
      .ok (some (.node ⟨none, .port .input, some "bit", 1⟩)) := by decide +kernel
  refine ⟨recasing, last, h, hresult, hkeywords, ?parse, ?keyword⟩
  case parse => exact hresult ▸ (hparse hkeywords).eq_ok (by decide +kernel)
  case keyword =>
    have hplace := hline 0 line capital _ (by rw [hlines]; rfl) (by rw [hlines']; rfl) hentry
      hentry' 1 _ rfl
    exact hplace.resolve_left (by decide)

end Netlist

end Schematic
