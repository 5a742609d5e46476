import Schematic.Proofs.LineEnds

namespace Schematic.Netlist

open Text

/-!
# One line at a time

A netlist is read line by line: each line has the meaning that it would have alone, apart from its
number.

* `parseLines_append`, `parseLines_fault` — the entries of several lines of tokens;
* `readEntries_of_lines`, `readEntries_of_faulty_lines` — the entries of a text and of what follows
  behind a newline;
* `parse_append_newline` — the netlist of two texts with a newline between them.

The lexer reads a text as a whole, so that it has to be shown that a line can be cut off. The tokens
in front of a newline are those of the first text alone, by the module on the ends of lines; the
tokens behind it are those of the second text alone, some lines further down. Splitting into lines
puts the cut where the newline is. The entries, and with them the declarations, are then those of
the two texts, one after the other. If the first text has an error, this is the error of both, since
lines are read in order, and so the second text is not looked at.
-/

/-! ### Entries -/

/-- Every list of tokens has at least one line, if only an empty one. -/
theorem splitLines_ne_nil (tokens : List Token) : splitLines tokens ≠ [] := by
  fun_cases splitLines tokens <;> simp

/-- The lines of two texts with a newline between them are those of the first and behind them those
    of the second, as the newline is no part of either. -/
theorem splitLines_append {newline : Token} (h : newline.kind = .newline)
    (first second : List Token) :
    splitLines (first ++ newline :: second) = splitLines first ++ splitLines second := by
  induction first with
  | nil => simp [splitLines, h]
  | cons token first ih =>
    by_cases ended : token.kind = .newline
    · simp [splitLines, ended, ih]
    · simp only [List.cons_append, splitLines, ended, if_false, ih]
      cases lines : splitLines first with
      | nil => exact absurd lines (splitLines_ne_nil first)
      | cons line lines => rfl

/-- A line is parsed before those behind it. A fault belongs to the last line only, and so the first
    of several lines is parsed as if there were none. -/
theorem parseLines_cons {fault : Option Error} {lines : List (List Token)}
    (h : lines ≠ [] ∨ fault = none) (line : List Token) :
    parseLines fault (line :: lines) = do
      let entry ← parseLine none line
      let entries ← parseLines fault lines
      return entry.toList ++ entries := by
  cases lines with
  | nil =>
    obtain rfl := h.resolve_left (by simp)
    simp only [parseLines]
    cases parseLine none line with
    | error error => rfl
    | ok entry => exact congrArg Except.ok (List.append_nil _).symm
  | cons next lines => rfl

/-- Lines are parsed one after the other, and their entries are put together in this order. The
    fault goes with the second part, which has the last line. -/
theorem parseLines_append {second : List (List Token)} (h : second ≠ []) (fault : Option Error)
    (first : List (List Token)) :
    parseLines fault (first ++ second) = do
      let entries ← parseLines none first
      let following ← parseLines fault second
      return entries ++ following := by
  induction first with
  | nil =>
    rw [List.nil_append]
    cases parseLines fault second <;> rfl
  | cons line first ih =>
    have nonempty : first ++ second ≠ [] := List.append_ne_nil_of_right_ne_nil first h
    rw [List.cons_append, parseLines_cons (.inl nonempty), ih, parseLines_cons (.inr rfl)]
    simp only [bind_assoc, pure_bind, List.append_assoc]

/-- Lines that end in a fault have no entries. The fault need not be what they are refused for,
    since an earlier line can be refused first. -/
theorem parseLines_fault {lines : List (List Token)} (h : lines ≠ []) (fault : Error) :
    ∃ error, parseLines (some fault) lines = .error error := by
  induction lines with
  | nil => exact absurd rfl h
  | cons line lines ih =>
    by_cases last : lines = []
    · subst last
      cases line with
      | nil => exact ⟨fault, rfl⟩
      | cons head arguments =>
        by_cases starts : Entry.canBegin head.kind
        · exact ⟨fault, by rw [parseLines, parseLine, if_pos starts]; rfl⟩
        · exact ⟨_, by rw [parseLines, parseLine, if_neg starts]; rfl⟩
    · -- A line in front of the last can fail before the fault is reached, with an error of its own.
      obtain ⟨error, failed⟩ := ih last
      rw [parseLines_cons (.inl last), failed]
      cases parseLine none line with
      | error early => exact ⟨early, rfl⟩
      | ok entry => exact ⟨error, rfl⟩

/-- The entries of a text without a lexical fault, and of what follows behind a newline. -/
theorem readEntries_before {cursor : Cursor} (h : cursor.tokens.fault = none) (more : List Char) :
    readEntries (cursor.before ('\n' :: more)) = do
      let entries ← readEntries cursor
      let following ← readEntries ⟨more, cursor.finish.advance '\n'⟩
      return entries ++ following := by
  simp only [readEntries, Cursor.tokens_of_line h, h]
  rw [splitLines_append rfl, parseLines_append (splitLines_ne_nil _)]

/-- The entries of a text that can be read, and of what follows behind a newline. The first part has
    no fault then, and all its tokens are read as if the text ended there. -/
theorem readEntries_of_lines {cursor : Cursor} {entries : List Entry}
    (h : readEntries cursor = .ok entries) (more : List Char) :
    readEntries (cursor.before ('\n' :: more)) =
      (readEntries ⟨more, cursor.finish.advance '\n'⟩).map (entries ++ ·) := by
  cases faulty : cursor.tokens.fault with
  | some fault =>
    obtain ⟨error, failed⟩ := parseLines_fault (splitLines_ne_nil cursor.tokens.tokens) fault
    rw [readEntries, faulty, failed] at h
    simp at h
  | none =>
    rw [readEntries_before faulty, h]
    rfl

/-- A text that cannot be read cannot be read either when it goes on behind a newline. Nothing that
    follows can mend a line that has ended. -/
theorem readEntries_of_faulty_lines {cursor : Cursor} {error : Error}
    (h : readEntries cursor = .error error) (more : List Char) :
    ∃ other, readEntries (cursor.before ('\n' :: more)) = .error other := by
  cases faulty : cursor.tokens.fault with
  | some fault =>
    -- The error need not be the same one, since a fault can change when a newline follows.
    obtain ⟨other, followed⟩ := Cursor.tokens_of_faulty_line faulty more
    rw [readEntries, followed]
    exact parseLines_fault (splitLines_ne_nil _) other
  | none =>
    rw [readEntries_before faulty, h]
    exact ⟨error, rfl⟩

/-! ### Netlists -/

/-- The declarations of two texts, the second of which begins `n` lines further down. Of two names
    for the design, the last one counts, and so the second text has the first say. -/
theorem ofEntries_append (n : Nat) (first second : List Entry) :
    ofEntries (first ++ second.map (Entry.shift n)) =
      { name := (ofEntries second).name.or (ofEntries first).name
        types := (ofEntries first).types ++ (ofEntries second).types.map (TypeDecl.shift n)
        nodes := (ofEntries first).nodes ++ (ofEntries second).nodes.map (NodeDecl.shift n)
        connections :=
          (ofEntries first).connections ++
            (ofEntries second).connections.map (Connection.shift n) } := by
  have name : Entry.name? ∘ Entry.shift n = Entry.name? :=
    funext fun entry => by cases entry <;> rfl
  have type : Entry.type? ∘ Entry.shift n = fun entry => entry.type?.map (TypeDecl.shift n) :=
    funext fun entry => by cases entry <;> rfl
  have node : Entry.node? ∘ Entry.shift n = fun entry => entry.node?.map (NodeDecl.shift n) :=
    funext fun entry => by cases entry <;> rfl
  have connection : Entry.connection? ∘ Entry.shift n =
      fun entry => entry.connection?.map (Connection.shift n) :=
    funext fun entry => by cases entry <;> rfl
  simp only [ofEntries, List.filterMap_append, List.filterMap_map, List.map_filterMap,
    List.getLast?_append, name, type, node, connection]

/-- The number of newlines in a text. -/
def newlines (text : String) : Nat := text.toList.count '\n'

/-- The beginning of the first text, followed by a newline and the second, is the beginning of all
    three. -/
theorem ofText_append_newline (a b : String) :
    Cursor.ofText (a ++ "\n" ++ b) = (Cursor.ofText a).before ('\n' :: b.toList) := by
  simp [Cursor.ofText, Cursor.before]

/-- The entries of a text with a newline in it, when its first part can be read. The second part is
    read as a text of its own, with all its lines moved down behind the first part. -/
theorem readEntries_append_newline {a b : String} {entries : List Entry}
    (h : readEntries (.ofText a) = .ok entries) :
    readEntries (.ofText (a ++ "\n" ++ b)) =
      (shifted (newlines a + 1) (List.map (Entry.shift (newlines a + 1)))
        (readEntries (.ofText b))).map (entries ++ ·) := by
  have behind : (⟨b.toList, (Cursor.ofText a).finish.advance '\n'⟩ : Cursor) =
      (Cursor.ofText b).shift (newlines a + 1) := by
    have line := Position.line_after .start a.toList
    simp only [Position.start] at line
    simp only [Cursor.ofText, Cursor.shift, Cursor.finish, Position.advance, Position.shift,
      Position.start, if_true, line, newlines, Nat.add_assoc]
  rw [ofText_append_newline, readEntries_of_lines h, behind, readEntries_shift]

/-- A netlist is parsed line by line. Behind a text that can be parsed and a newline, everything has
    its own meaning, with the numbers of lines moved. -/
theorem parse_append_newline (a b : String) :
    ((∃ netlist, parse (a ++ "\n" ++ b) = .ok netlist) ↔
      (∃ first, parse a = .ok first) ∧ ∃ second, parse b = .ok second) ∧
    (∀ first second, parse a = .ok first → parse b = .ok second →
      parse (a ++ "\n" ++ b) = .ok
        { name := second.name.or first.name
          types := first.types ++ second.types.map (TypeDecl.shift (newlines a + 1))
          nodes := first.nodes ++ second.nodes.map (NodeDecl.shift (newlines a + 1))
          connections :=
            first.connections ++ second.connections.map (Connection.shift (newlines a + 1)) }) ∧
    ∀ first error, parse a = .ok first → parse b = .error error →
      parse (a ++ "\n" ++ b) = .error (error.shift (newlines a + 1)) := by
  -- Both texts are compared entry by entry, since the netlist does not show their order.
  cases ha : readEntries (.ofText a) with
  | error error =>
    obtain ⟨other, failed⟩ := readEntries_of_faulty_lines ha b.toList
    simp [parse_eq, ha, ofText_append_newline, failed, Except.map]
  | ok first =>
    have both := readEntries_append_newline (b := b) ha
    cases hb : readEntries (.ofText b) with
    | error error =>
      rw [hb] at both
      simp [parse_eq, ha, hb, both, Except.map]
    | ok second =>
      rw [hb] at both
      simp [parse_eq, ha, hb, both, Except.map, ofEntries_append]

/-- A comment ends with its line, whether what follows can be parsed or not. Here the comment has a
    quote in it, which opens no string. -/
theorem parse_behind_comment :
    parse ".graph top # \"a" = .ok { name := some "top" } ∧
    parse "\nconnect s \"b" = .error (.lexical ⟨2, 11⟩ .unterminatedString) ∧
    parse (".graph top # \"a" ++ "\n" ++ "signal s bit") =
      .ok { name := some "top", nodes := [⟨some "s", .signal, some "bit", 2⟩] } ∧
    parse (".graph top # \"a" ++ "\n" ++ "\nconnect s \"b") =
      .error (.lexical ⟨3, 11⟩ .unterminatedString) := by
  have first : parse ".graph top # \"a" = .ok { name := some "top" } := by
    decide +kernel
  have second : parse "signal s bit" = .ok { nodes := [⟨some "s", .signal, some "bit", 1⟩] } := by
    decide +kernel
  have failed : parse "\nconnect s \"b" = .error (.lexical ⟨2, 11⟩ .unterminatedString) := by
    decide +kernel
  exact ⟨first, failed, (parse_append_newline _ _).2.1 _ _ first second,
    (parse_append_newline _ _).2.2 _ _ first failed⟩

end Schematic.Netlist
