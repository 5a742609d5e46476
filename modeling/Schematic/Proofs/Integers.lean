import Schematic.Proofs.FaultPositions
import Schematic.Proofs.LineNumbers
import Schematic.Proofs.Quoting
import Schematic.Proofs.Words

namespace Schematic.Netlist

open Text

/-!
# Integers

An integer of a netlist is read exactly, or its line is refused. The grammar has integers as
defaults, as operands and as sources, where there is room for 64-bit words, and as widths, for which
there are the positive 32-bit words.

* `Form.TakesInteger`, `Form.HasRoomFor` — the places of integers, and the integers that fit there;
* `Form.Production.set_numeral`, `Form.Production.read_set_numeral` — a line with a numeral put in
  such a place is accepted with the value of the numeral, or refused if this does not fit;
* `parseLines_of_line_error`, `exists_parseLines` — the outcome for lines from those for each line;
* `Occurrence`, `Occurrence.IsExact` — a numeral in a place for an integer, and how it is read;
* `integers_exact` — this for all numerals, whatever their length.

An integer is at issue in one place of one line, but whether a text is accepted depends on all
lines. The line is taken first: a production of its form gives, with a numeral put in the place,
either the production with the value of the numeral or a certain refusal. For this it does not
matter what stood in the place before, so that a line is said to be in order if some token there
makes it acceptable. The text comes second: lines are read in order, and the first that is refused
decides. Four facts come out, by whether the numeral fits and which lines are in order, and
`Occurrence.IsExact` collects them.

That numerals are all there is, and that a numeral is one token whatever its length, is a matter for
the lexer, and is proved apart.
-/

/-! ### Numerals as arguments -/

/-- The token is a number that is spelled as the numeral. -/
structure Token.IsNumeral (token : Token) (numeral : Numeral) : Prop where
  kind : token.kind = .number
  text : token.text = numeral.text

namespace Token.IsNumeral

variable {token : Token} {numeral : Numeral}

/-- A numeral that fits in a word is the constant of its value. -/
theorem constant_eq_ok (h : token.IsNumeral numeral) (hrange : IsInt64 numeral.value) :
    token.constant = .ok (.int (.ofInt numeral.value)) := by
  simp only [constant, h.kind, h.text, Numeral.readInt64?_eq_some.mpr (toInt_ofInt hrange)]

/-- A numeral that does not fit in a word is refused as an integer. -/
theorem constant_eq_error (h : token.IsNumeral numeral) (hrange : ¬ IsInt64 numeral.value) :
    token.constant = token.refuse (.invalidInteger numeral.text) := by
  simp only [constant, h.kind, h.text, Numeral.readInt64?_eq_none.mpr hrange]

/-- A numeral that fits in a word is an operand, as the constant of its value. -/
theorem operand_eq_ok (h : token.IsNumeral numeral) (hrange : IsInt64 numeral.value) :
    token.operand = .ok (.constant (.int (.ofInt numeral.value))) := by
  rw [operand, h.constant_eq_ok hrange]

/-- A numeral for which there is no room is looked at once more, as the name of a node. -/
theorem operand_eq_error (h : token.IsNumeral numeral) (hrange : ¬ IsInt64 numeral.value) :
    token.operand = token.refuse (.expectedIdentifier numeral.text) := by
  have hname : token.identifier = token.refuse (.expectedIdentifier numeral.text) := by
    rw [identifier, if_neg (by simp [h.kind]), h.text]
  rw [operand, h.constant_eq_error hrange, refuse]
  show token.identifier.map Operand.node = _
  rw [hname]
  rfl

end Token.IsNumeral

/-! ### Places of integers -/

/-- The grammar has an integer in this place among the arguments of a line: where it has constants,
    and where it has the width of a vector. -/
inductive Form.TakesInteger : Form → List Token → Nat → Prop
  | constant {form : Form} {arguments : List Token} {place : Nat}
      (h : form.TakesConstant place) : TakesInteger form arguments place
  | width {name kind numeral : Token} (h : kind.text.toLower = "vector") :
      TakesInteger .type [name, kind, numeral] 2

/-- The integer fits in the places of the form: it is the width of a vector, or else a 64-bit
    word. -/
def Form.HasRoomFor (form : Form) (value : Int) : Prop :=
  match form with
  | .type => 1 ≤ value ∧ value ≤ 4294967295
  | _ => IsInt64 value

/-- What is wrong with a line of the form if an integer does not fit. -/
def Form.integerFault (form : Form) (text : String) : GrammarFault :=
  match form with
  | .type => .invalidWidth text
  | .param => .invalidInteger text
  | _ => .expectedIdentifier text

/-- The integer that an operand is. -/
def Operand.integer? : Operand → Option Int
  | .constant (.int value) => some value.toInt
  | _ => none

/-- The integer that was in this place among the arguments of a line, from what the line
    declares. -/
def Entry.integer? (entry : Entry) (place : Nat) : Option Int :=
  match entry, place with
  | .type ⟨_, .vector width, _⟩, 2 => some width.toNat
  | .node ⟨_, .parameter (some (.int value)), _, _⟩, 2 => some value.toInt
  | .node ⟨_, .expression _ lhs _, _, _⟩, 2 => lhs.integer?
  | .node ⟨_, .expression _ _ rhs, _, _⟩, 3 => rhs.integer?
  | .connection ⟨_, source, _⟩, 1 => source.integer?
  | _, _ => none

/-- A numeral is a width if it fits in the place of one, which takes it to be positive and below the
    bound of 32 bits. -/
theorem exists_readWidth? {numeral : Numeral} :
    (∃ width, readWidth? numeral.text = some width) ↔ Form.type.HasRoomFor numeral.value := by
  constructor
  · rintro ⟨width, hread⟩
    obtain ⟨hpositive, hvalue⟩ := Numeral.readWidth?_eq_some.mp hread
    have hwidth : width.toNat < UInt32.size := width.toNat_lt_size
    simp only [UInt32.size] at hwidth
    exact ⟨hpositive, by omega⟩
  · rintro ⟨hpositive, hlast⟩
    have hwidth : (UInt32.ofNat numeral.value.toNat).toNat = numeral.value.toNat :=
      UInt32.toNat_ofNat_of_lt' (by simp only [UInt32.size]; omega)
    exact ⟨.ofNat numeral.value.toNat, Numeral.readWidth?_eq_some.mpr ⟨hpositive, by omega⟩⟩

/-- A place of an integer is one whatever token stands there. -/
theorem Form.TakesInteger.set {form : Form} {arguments : List Token} {place : Nat}
    (h : form.TakesInteger arguments place) (token : Token) :
    form.TakesInteger (arguments.set place token) place := by
  cases h with
  | constant h => exact .constant h
  | width h => exact .width h

namespace Form.Production

variable {form : Form} {line place : Nat} {arguments : List Token} {entry : Entry} {token : Token}
  {numeral : Numeral}

/-- A line is accepted as well with a numeral in the place of an integer if this fits, and then it
    declares the integer. -/
theorem set_numeral (h : form.Production line arguments entry)
    (htakes : form.TakesInteger arguments place) (hplace : place < arguments.length)
    (hnumeral : token.IsNumeral numeral) (hroom : form.HasRoomFor numeral.value) :
    ∃ entry, form.Production line (arguments.set place token) entry ∧
      entry.integer? place = some numeral.value := by
  -- Only a vector takes a width, and the forms that take constants have them in known places.
  cases htakes with
  | width _ =>
    cases h with
    | vector hname hkind =>
      obtain ⟨width, hwidth⟩ := exists_readWidth?.mpr hroom
      have hvalue := (Numeral.readWidth?_eq_some.mp hwidth).2
      rw [← hnumeral.text] at hwidth
      exact ⟨_, .vector hname hkind hwidth, congrArg some hvalue⟩
  | constant hconstant =>
    cases h with
    | graph | type | vector | port | namedPort | signal | namedSignal => exact hconstant.elim
    | param =>
      obtain rfl : place = 2 := hconstant
      exact absurd hplace (Nat.lt_irrefl 2)
    | default hname htype =>
      obtain rfl : place = 2 := hconstant
      have hvalue := congrArg some (toInt_ofInt hroom)
      exact ⟨_, .default hname htype (hnumeral.constant_eq_ok hroom), hvalue⟩
    | expr hname hop hleft hright =>
      have hoperand := hnumeral.operand_eq_ok hroom
      have hvalue := congrArg some (toInt_ofInt hroom)
      rcases hconstant with rfl | rfl
      · exact ⟨_, .expr hname hop hoperand hright, hvalue⟩
      · exact ⟨_, .expr hname hop hleft hoperand, hvalue⟩
    | connect hname =>
      obtain rfl : place = 1 := hconstant
      have hvalue := congrArg some (toInt_ofInt hroom)
      exact ⟨_, .connect hname (hnumeral.operand_eq_ok hroom), hvalue⟩

/-- A line is refused with a numeral in the place of an integer if this does not fit. Whatever stood
    in the place before, the arguments that are looked at before it are in order, so that the
    numeral is reached. -/
theorem read_set_numeral (h : form.Production line arguments entry)
    (htakes : form.TakesInteger arguments place) (hplace : place < arguments.length)
    (hnumeral : token.IsNumeral numeral) (hline : token.line = line)
    (hroom : ¬ form.HasRoomFor numeral.value) :
    form.read line (arguments.set place token) =
      .error (.grammar line (form.integerFault numeral.text)) := by
  subst hline
  cases htakes with
  | @width _ kind _ hvector =>
    have hwidth : readWidth? numeral.text = none := by
      rw [Option.eq_none_iff_forall_ne_some]
      exact fun width hwidth => hroom (exists_readWidth?.mp ⟨width, hwidth⟩)
    show read .type token.line [_, kind, token] = _
    rw [read_vector, if_pos hvector, hnumeral.text, hwidth]
    rfl
  | constant hconstant =>
    cases h with
    | graph | type | vector | port | namedPort | signal | namedSignal => exact hconstant.elim
    | param =>
      obtain rfl : place = 2 := hconstant
      exact absurd hplace (Nat.lt_irrefl 2)
    | @default name typeName =>
      obtain rfl : place = 2 := hconstant
      show readParam token.line [name, typeName, token] = _
      rw [readParam, hnumeral.constant_eq_error hroom]
      rfl
    | @expr name word left right _ _ _ _ hname hop hleft =>
      have hoperand := hnumeral.operand_eq_error hroom
      rcases hconstant with rfl | rfl
      · show readExpr token.line [name, word, token, right] = _
        rw [readExpr, hop, hname, hoperand]
        rfl
      · show readExpr token.line [name, word, left, token] = _
        rw [readExpr, hop, hname, hleft, hoperand]
        rfl
    | @connect name _ _ _ hname =>
      obtain rfl : place = 1 := hconstant
      show readConnect token.line [name, token] = _
      rw [readConnect, hname, hnumeral.operand_eq_error hroom]
      rfl

/-- A numeral in the place of an integer fits if the line is accepted, which declares the integer
    then. -/
theorem integer_of_numeral (h : form.Production line arguments entry)
    (htakes : form.TakesInteger arguments place) (hplace : arguments[place]? = some token)
    (hnumeral : token.IsNumeral numeral) (hline : token.line = line) :
    form.HasRoomFor numeral.value ∧ entry.integer? place = some numeral.value := by
  obtain ⟨hlength, htoken⟩ := List.getElem?_eq_some_iff.mp hplace
  -- The numeral is put where it already stands.
  have hset : arguments.set place token = arguments := by rw [← htoken, List.set_getElem_self]
  have hread := h.read_eq
  by_cases hroom : form.HasRoomFor numeral.value
  case neg =>
    have hrefused := h.read_set_numeral htakes hlength hnumeral hline hroom
    rw [hset, hread] at hrefused
    exact absurd hrefused (by simp)
  case pos =>
    obtain ⟨other, hother, hinteger⟩ := h.set_numeral htakes hlength hnumeral hroom
    rw [hset] at hother
    obtain rfl : entry = other := Except.ok.inj (hread.symm.trans hother.read_eq)
    exact ⟨hroom, hinteger⟩

end Form.Production

/-! ### The outcome line by line -/

section Lines

variable {fault : Option Error} {lines : List (List Token)}

/-- Lines are accepted if each of them is. There is nothing that one line could do to another
    one. -/
theorem exists_parseLines (h : ∀ line ∈ lines, ∃ entry, parseLine none line = .ok entry) :
    ∃ entries, parseLines none lines = .ok entries := by
  induction lines with
  | nil => exact ⟨[], rfl⟩
  | cons line lines ih =>
    obtain ⟨hhere, hbelow⟩ := List.forall_mem_cons.mp h
    obtain ⟨entry, hentry⟩ := hhere
    obtain ⟨entries, hentries⟩ := ih hbelow
    exact ⟨entry.toList ++ entries, by rw [parseLines_cons (.inr rfl), hentry, hentries]; rfl⟩

/-- The first line that is refused is what lines are refused for. All lines above it are accepted,
    and those below are not looked at. -/
theorem parseLines_of_line_error {line : List Token} {k : Nat} {error : Error}
    (hline : lines[k]? = some line)
    (habove : ∀ j < k, ∀ other, lines[j]? = some other → ∃ entry, parseLine none other = .ok entry)
    (herror : parseLine (if k + 1 = lines.length then fault else none) line = .error error) :
    parseLines fault lines = .error error := by
  induction lines generalizing k with
  | nil => exact absurd hline (by simp)
  | cons first lines ih =>
    -- The line is the first one, or it lies behind a line that is accepted.
    cases k with
    | zero =>
      obtain rfl := Option.some.inj hline
      by_cases hlast : lines = []
      · subst hlast
        rw [if_pos (by rfl)] at herror
        rw [parseLines, herror]
        rfl
      · have hlength := List.length_pos_iff.mpr hlast
        rw [if_neg (by rw [List.length_cons]; omega)] at herror
        rw [parseLines_cons (.inl hlast), herror]
        rfl
    | succ k =>
      rw [List.getElem?_cons_succ] at hline
      simp only [List.length_cons, Nat.add_right_cancel_iff] at herror
      have hmore : lines ≠ [] := by
        rintro rfl
        exact absurd hline (by simp)
      obtain ⟨entry, hentry⟩ := habove 0 (Nat.succ_pos k) first rfl
      have hbelow := ih hline (fun j hj => habove (j + 1) (Nat.succ_lt_succ hj)) herror
      rw [parseLines_cons (.inl hmore), hentry, hbelow]
      rfl

end Lines

/-! ### Numerals in a text -/

/-- A numeral of a text, where the grammar has an integer. -/
structure Occurrence (text : String) (numeral : Numeral) where
  /-- How many lines are above the one of the numeral. -/
  above : Nat
  /-- The first token of the line. -/
  head : Token
  /-- The other tokens of the line. -/
  arguments : List Token
  /-- What the line begins as. -/
  form : Form
  /-- The place of the numeral among the arguments. -/
  place : Nat
  /-- The numeral. -/
  token : Token
  onLine : (tokenLines text)[above]? = some (head :: arguments)
  announced : Entry.form head = .ok form
  takes : form.TakesInteger arguments place
  stands : arguments[place]? = some token
  isNumeral : token.IsNumeral numeral

namespace Occurrence

variable {text : String} {numeral : Numeral}

/-- The number of the line. -/
def line (occurrence : Occurrence text numeral) : Nat := 1 + occurrence.above

/-- There is room for the value of the numeral. -/
def Fits (occurrence : Occurrence text numeral) : Prop :=
  occurrence.form.HasRoomFor numeral.value

/-- The lexical fault in which the line ends, which can only be the last one then. -/
def fault (occurrence : Occurrence text numeral) : Option Error :=
  if occurrence.above + 1 = (tokenLines text).length then (Cursor.ofText text).tokens.fault
  else none

/-- The line is accepted with some token in the place of the numeral. -/
def LineIsInOrder (occurrence : Occurrence text numeral) : Prop :=
  ∃ token entry,
    Entry.read occurrence.head (occurrence.arguments.set occurrence.place token) = .ok entry

/-- The lines above are accepted. -/
def AboveIsInOrder (occurrence : Occurrence text numeral) : Prop :=
  ∀ j < occurrence.above, ∀ tokens, (tokenLines text)[j]? = some tokens →
    ∃ entry, parseLine none tokens = .ok entry

/-- The lines below are accepted, and there is no lexical fault. -/
def BelowIsInOrder (occurrence : Occurrence text numeral) : Prop :=
  (Cursor.ofText text).tokens.fault = none ∧
    ∀ j > occurrence.above, ∀ tokens, (tokenLines text)[j]? = some tokens →
      ∃ entry, parseLine none tokens = .ok entry

/-- The numeral is read as its value, or its line is refused. -/
structure IsExact (occurrence : Occurrence text numeral) : Prop where
  /-- In a text that is accepted the value fits, and the line declares one thing, which has the
      value in the place of the numeral. -/
  accepted : ∀ netlist, parse text = .ok netlist → occurrence.Fits ∧
    ∃ entry, netlist.entriesOn occurrence.line = [entry] ∧
      entry.integer? occurrence.place = some numeral.value
  /-- If all else is in order, the text is accepted exactly if the value fits. -/
  accepted_iff : occurrence.AboveIsInOrder → occurrence.LineIsInOrder → occurrence.BelowIsInOrder →
    ((∃ netlist, parse text = .ok netlist) ↔ occurrence.Fits)
  /-- If the value does not fit, the text is refused. If the lines above are in order, it is refused
      for a fault of this line. -/
  refused : ¬ occurrence.Fits → ∃ error, parse text = .error error ∧
    (occurrence.AboveIsInOrder →
      error.IsGrammarOn occurrence.line ∨ occurrence.fault = some error)
  /-- If also the line is in order, it is refused for this value. -/
  refused_for : ¬ occurrence.Fits → occurrence.AboveIsInOrder → occurrence.LineIsInOrder →
    occurrence.fault = none →
    parse text = .error
      (.grammar occurrence.line (occurrence.form.integerFault numeral.text))

variable (occurrence : Occurrence text numeral)

/-- All tokens of the line carry its number. -/
theorem line_of_mem : ∀ token ∈ occurrence.head :: occurrence.arguments,
    token.line = occurrence.line :=
  numbered_tokenLines text occurrence.above _ occurrence.onLine

/-- The first token of the line carries its number. -/
theorem line_head : occurrence.head.line = occurrence.line :=
  occurrence.line_of_mem _ List.mem_cons_self

/-- The numeral carries the number of its line. -/
theorem line_token : occurrence.token.line = occurrence.line :=
  occurrence.line_of_mem _ (List.mem_cons_of_mem _ (List.mem_of_getElem? occurrence.stands))

/-- Putting the numeral where it stands changes nothing. -/
theorem set_set (token : Token) :
    (occurrence.arguments.set occurrence.place token).set occurrence.place occurrence.token =
      occurrence.arguments := by
  obtain ⟨_, htoken⟩ := List.getElem?_eq_some_iff.mp occurrence.stands
  rw [List.set_set, ← htoken, List.set_getElem_self]

/-- The place of the numeral is one of the arguments, whatever is put there. -/
theorem place_lt (token : Token) :
    occurrence.place < (occurrence.arguments.set occurrence.place token).length := by
  obtain ⟨hplace, -⟩ := List.getElem?_eq_some_iff.mp occurrence.stands
  rwa [List.length_set]

/-- What the line is as an entry, if it is one. -/
theorem production_of_read {arguments : List Token} {entry : Entry}
    (h : Entry.read occurrence.head arguments = .ok entry) :
    occurrence.form.Production occurrence.line arguments entry := by
  obtain ⟨form, hform, hentry⟩ := Entry.read_eq_ok.mp h
  obtain rfl : occurrence.form = form := Except.ok.inj (occurrence.announced.symm.trans hform)
  rwa [occurrence.line_head] at hentry

/-- The line is read by the form that its first token announces. -/
theorem read_eq : Entry.read occurrence.head occurrence.arguments =
    occurrence.form.read occurrence.line occurrence.arguments := by
  rw [Entry.read, occurrence.announced, ← occurrence.line_head]
  rfl

/-- If the line is accepted, the value fits and is declared. -/
theorem integer_of_production {entry : Entry}
    (h : occurrence.form.Production occurrence.line occurrence.arguments entry) :
    occurrence.Fits ∧ entry.integer? occurrence.place = some numeral.value :=
  h.integer_of_numeral occurrence.takes occurrence.stands occurrence.isNumeral occurrence.line_token

/-- In a text that is accepted the value fits, and it is declared on the line of the numeral. -/
theorem integer_of_parse {netlist : Netlist} (h : parse text = .ok netlist) :
    occurrence.Fits ∧ ∃ entry, netlist.entriesOn occurrence.line = [entry] ∧
      entry.integer? occurrence.place = some numeral.value := by
  have hline := (wellFormed_of_parse h).lines occurrence.above
  rw [occurrence.onLine, Option.getD_some, ← line] at hline
  cases hentries : netlist.entriesOn occurrence.line with
  | nil =>
    -- A line that names the design takes no integer.
    rw [hentries] at hline
    cases hline with
    | graph hform _ =>
      have hgraph := Except.ok.inj (hform.symm.trans occurrence.announced)
      have htakes := occurrence.takes
      rw [← hgraph] at htakes
      cases htakes with
      | constant hconstant => exact hconstant.elim
  | cons entry entries =>
    rw [hentries] at hline
    cases hline with
    | entry hform hentry =>
      obtain rfl := Except.ok.inj (hform.symm.trans occurrence.announced)
      obtain ⟨hfits, hinteger⟩ := occurrence.integer_of_production hentry
      exact ⟨hfits, entry, rfl, hinteger⟩

/-- If all else is in order and the value fits, the text is accepted. The lines above and below are
    in order as they are, and the line of the numeral is by the value. -/
theorem parse_of_fits (habove : occurrence.AboveIsInOrder) (hline : occurrence.LineIsInOrder)
    (hbelow : occurrence.BelowIsInOrder) (hfits : occurrence.Fits) :
    ∃ netlist, parse text = .ok netlist := by
  obtain ⟨token, entry, hread⟩ := hline
  obtain ⟨own, hown, -⟩ := (occurrence.production_of_read hread).set_numeral
    (occurrence.takes.set token) (occurrence.place_lt token) occurrence.isNumeral hfits
  rw [occurrence.set_set] at hown
  obtain ⟨entries, hentries⟩ : ∃ entries, parseLines none (tokenLines text) = .ok entries := by
    refine exists_parseLines fun tokens htokens => ?_
    obtain ⟨j, hj⟩ := List.getElem?_of_mem htokens
    -- A line lies above the one of the numeral, or it is this line, or it lies below.
    rcases Nat.lt_trichotomy j occurrence.above with hlt | rfl | hgt
    · exact habove j hlt tokens hj
    · obtain rfl := Option.some.inj (hj.symm.trans occurrence.onLine)
      exact ⟨some own, by rw [parseLine, occurrence.read_eq, hown.read_eq]; rfl⟩
    · exact hbelow.2 j hgt tokens hj
  refine ⟨ofEntries entries, ?_⟩
  rw [parse_eq, readEntries, hbelow.1]
  show (parseLines none (tokenLines text)).map ofEntries = _
  rw [hentries]
  rfl

/-- If the lines above are in order, what is wrong with the line is what is wrong with the text. -/
theorem parse_of_parseLine {error : Error} (habove : occurrence.AboveIsInOrder)
    (herror : parseLine occurrence.fault (occurrence.head :: occurrence.arguments) = .error error) :
    parse text = .error error := by
  have hlines := parseLines_of_line_error occurrence.onLine habove herror
  rw [parse_eq, readEntries]
  show (parseLines _ (tokenLines text)).map ofEntries = _
  rw [hlines]
  rfl

/-- If the value does not fit, the line is refused. If it were accepted, it would be by a
    production, and a production has only integers that fit. -/
theorem exists_parseLine_error (hfits : ¬ occurrence.Fits) :
    ∃ error, parseLine occurrence.fault (occurrence.head :: occurrence.arguments) =
      .error error := by
  -- A fault of the lexer ends the line in any case, and without one the grammar decides.
  cases hfault : occurrence.fault with
  | some fault =>
    rw [parseLine]
    split
    · exact ⟨fault, rfl⟩
    · exact ⟨_, rfl⟩
  | none =>
    rw [parseLine]
    cases hread : Entry.read occurrence.head occurrence.arguments with
    | error error => exact ⟨error, rfl⟩
    | ok entry =>
      exact absurd (occurrence.integer_of_production (occurrence.production_of_read hread)).1 hfits

/-- Wherever a netlist has a numeral in the place of an integer, it is exact or refused. The four
    parts differ in what is asked of the rest of the text. -/
theorem isExact : occurrence.IsExact where
  accepted netlist h := occurrence.integer_of_parse h
  accepted_iff habove hline hbelow :=
    ⟨fun ⟨_, h⟩ => (occurrence.integer_of_parse h).1, occurrence.parse_of_fits habove hline hbelow⟩
  refused hfits := by
    cases hparse : parse text with
    | ok netlist => exact absurd (occurrence.integer_of_parse hparse).1 hfits
    | error error =>
      refine ⟨error, rfl, fun habove => ?_⟩
      obtain ⟨own, hown⟩ := occurrence.exists_parseLine_error hfits
      have herror := occurrence.parse_of_parseLine habove hown
      obtain rfl : error = own := Except.error.inj (hparse.symm.trans herror)
      exact fails_parseLine _ occurrence.line_of_mem error hown
  refused_for hfits habove hline hfault := by
    obtain ⟨token, entry, hread⟩ := hline
    have hrefused := (occurrence.production_of_read hread).read_set_numeral
      (occurrence.takes.set token) (occurrence.place_lt token) occurrence.isNumeral
      occurrence.line_token hfits
    rw [occurrence.set_set, ← occurrence.read_eq] at hrefused
    refine occurrence.parse_of_parseLine habove ?_
    rw [hfault, parseLine, hrefused]
    rfl

end Occurrence

/-! ### All numerals -/

/-- A word alone is one token, at the beginning of its text and without a fault behind it. -/
theorem Spells.tokens_eq {word : String} {kind : TokenKind} {text : String}
    (h : Spells word.toList kind text) :
    (Cursor.ofText word).tokens = ⟨[⟨kind, text, .start⟩], none⟩ := by
  have hnext : (⟨[] ++ (word.toList ++ []), .start⟩ : Cursor).next = _ :=
    h.next_eq (fun _ hmem => absurd hmem List.not_mem_nil) endsWord_nil .start
  rw [List.nil_append, List.append_nil] at hnext
  rw [Cursor.ofText, Cursor.tokens_eq, hnext]
  simp only [h.ne_endOfInput, if_false]
  rw [Cursor.tokens_eq]
  rfl

/-- What is read as a number is a numeral. -/
theorem exists_numeral_of_readLexeme {text : List Char} {word : String}
    (read : (readLexeme text).reading = .ok (.number, word)) :
    ∃ numeral : Numeral, word = numeral.text := by
  have hdigits (text : List Char) : ∀ c ∈ text.takeWhile Char.isDigit, c.isDigit = true :=
    fun _ => List.mem_takeWhile_imp
  revert read
  -- By what the first character begins. Only a sign and a digit begin a number.
  fun_cases readLexeme text with
  | case1 | case2 | case8 => exact fun read => absurd read (by simp)
  | case3 text =>
    intro read
    simp only [readDirective] at read
    split at read <;> simp at read
  | case4 text =>
    intro read
    obtain ⟨_, -, hword⟩ := reading_extend read
    simp at hword
  | case5 sign text _ _ _ hsign =>
    intro read
    simp only [readSigned] at read
    split at read
    case isTrue => simp at read
    case isFalse hnonempty =>
      obtain rfl : _ = word := (Prod.mk.inj (Except.ok.inj read)).2
      rcases hsign with rfl | rfl
      · exact ⟨⟨.minus, _, hnonempty, hdigits text⟩, rfl⟩
      · exact ⟨⟨.plus, _, hnonempty, hdigits text⟩, rfl⟩
  | case6 c text _ _ _ _ hdigit =>
    intro read
    obtain rfl : _ = word := (Prod.mk.inj (Except.ok.inj read)).2
    have hnonempty : (c :: text).takeWhile Char.isDigit ≠ [] :=
      spelling_readRun_ne_nil hdigit .number text
    exact ⟨⟨.none, _, hnonempty, hdigits (c :: text)⟩, rfl⟩
  | case7 => exact fun read => absurd read (by simp [readRun])

/-- Every number among tokens is a numeral, so that nothing else is ever put in the place of an
    integer by the lexer. -/
theorem Cursor.exists_numeral (cursor : Cursor) : ∀ token ∈ cursor.tokens.tokens,
    token.kind = .number → ∃ numeral, token.IsNumeral numeral := by
  fun_induction tokens cursor with
  | case1 | case2 => simp
  | case3 cursor token stop read _ _ following ih =>
    refine List.forall_mem_cons.mpr ⟨fun hkind => ?_, ih⟩
    obtain ⟨_, rfl, reading, -, -⟩ := lexeme_of_next read
    rw [hkind] at reading
    obtain ⟨numeral, htext⟩ := exists_numeral_of_readLexeme reading
    exact ⟨numeral, hkind, htext⟩

/-- A numeral is read as the 64-bit word of its value, or as none if there is no such word. It is
    one token, and wherever a netlist has it in the place of an integer, it is exact or refused.
    There are no other numbers in a netlist. The decimal form of a 64-bit word is a numeral that is
    read as this word. -/
theorem integers_exact :
    (∀ numeral : Numeral,
      (∀ word : Int64, readInt64? numeral.text = some word ↔ word.toInt = numeral.value) ∧
      (readInt64? numeral.text = none ↔ ¬ IsInt64 numeral.value) ∧
      (Cursor.ofText numeral.text).tokens = ⟨[⟨.number, numeral.text, .start⟩], none⟩ ∧
      ∀ text, ∀ occurrence : Occurrence text numeral, occurrence.IsExact) ∧
    (∀ text, ∀ token ∈ (Cursor.ofText text).tokens.tokens, token.kind = .number →
      ∃ numeral, token.IsNumeral numeral) ∧
    ∀ word : Int64,
      (Cursor.ofText (toString word.toInt)).tokens =
        ⟨[⟨.number, toString word.toInt, .start⟩], none⟩ ∧
      readInt64? (toString word.toInt) = some word := by
  refine ⟨fun numeral => ⟨fun _ => Numeral.readInt64?_eq_some, Numeral.readInt64?_eq_none, ?_,
    fun _ occurrence => occurrence.isExact⟩, fun text => (Cursor.ofText text).exists_numeral,
    fun word => ⟨(spells_integer word.toInt).tokens_eq, readInt64?_toString word⟩⟩
  have hspells := spells_numeral numeral
  rw [← Numeral.toList_text] at hspells
  exact hspells.tokens_eq

/-- The least 64-bit word with a zero in front of its digits, and a width that is too great by one,
    on the second line of a text that is in order otherwise. -/
theorem integers_exact_at_bounds :
    let least : Numeral := ⟨.minus, "09223372036854775808".toList, by simp, List.all_eq_true.mp rfl⟩
    let wide : Numeral := ⟨.none, "4294967296".toList, by simp, List.all_eq_true.mp rfl⟩
    let text := "signal s bit\n.type t vector 4294967296"
    least.text = "-09223372036854775808" ∧ least.value = -9223372036854775808 ∧
    readInt64? least.text = some (-9223372036854775808) ∧
    wide.text = "4294967296" ∧ readInt64? wide.text = some 4294967296 ∧
    parse text = .error (.grammar 2 (.invalidWidth wide.text)) := by
  intro least wide text
  obtain ⟨hnumerals, -, -⟩ := integers_exact
  obtain ⟨hleast, -, -, -⟩ := hnumerals least
  obtain ⟨hwide, -, -, hoccurrences⟩ := hnumerals wide
  have hleastValue : least.value = -9223372036854775808 := by decide +kernel
  have hwideValue : wide.value = 4294967296 := by decide +kernel
  let occurrence : Occurrence text wide :=
    { above := 1, form := .type, place := 2, head := ⟨.directive, ".type", ⟨2, 1⟩⟩
      token := ⟨.number, "4294967296", ⟨2, 16⟩⟩
      arguments := [⟨.identifier, "t", ⟨2, 7⟩⟩, ⟨.identifier, "vector", ⟨2, 9⟩⟩,
        ⟨.number, "4294967296", ⟨2, 16⟩⟩]
      onLine := by decide +kernel
      announced := by decide +kernel
      takes := .width (by decide +kernel)
      stands := rfl
      isNumeral := ⟨rfl, by decide +kernel⟩ }
  have hfits : ¬ occurrence.Fits := by
    show ¬ (1 ≤ wide.value ∧ wide.value ≤ 4294967295)
    omega
  have habove : occurrence.AboveIsInOrder := by
    intro j hj tokens htokens
    obtain rfl : j = 0 := Nat.lt_one_iff.mp hj
    have hfirst : (tokenLines text)[0]? = some [⟨.identifier, "signal", ⟨1, 1⟩⟩,
        ⟨.identifier, "s", ⟨1, 8⟩⟩, ⟨.identifier, "bit", ⟨1, 10⟩⟩] := by decide +kernel
    obtain rfl := Option.some.inj (hfirst.symm.trans htokens)
    exact ⟨some (.node ⟨some "s", .signal, some "bit", 1⟩), by decide +kernel⟩
  have hline : occurrence.LineIsInOrder :=
    ⟨⟨.number, "1", ⟨2, 16⟩⟩, .type ⟨"t", .vector 1, 2⟩, by decide +kernel⟩
  refine ⟨by decide +kernel, hleastValue, (hleast _).mpr (by rw [hleastValue]; decide),
    by decide +kernel, (hwide _).mpr (by rw [hwideValue]; decide), ?_⟩
  exact (hoccurrences text occurrence).refused_for hfits habove hline (by decide +kernel)

end Schematic.Netlist
