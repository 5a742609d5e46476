import Mathlib.Logic.Function.Iterate
import Schematic.Proofs.FaultPositions

namespace Schematic.Netlist

open Text

/-!
# Progress

Each time a cursor is asked for the next token, it uses up at least one character that belongs to no
gap, or it has come to a place that it does not leave any more: to the end of the input, or to a
character that begins no token.

* `BeginsGap`, `BeginsToken` — what a character can be the first one of;
* `IsIdle` — the outcomes that use up nothing but a gap;
* `Cursor.Answer`, `Cursor.answer_next` — what a call comes to, by what stands behind the gap;
* `Cursor.onward`, `Cursor.next_iterate_onward` — call after call: an idle outcome stays the same;
* `Cursor.length_tokens_le`, `Cursor.calls_tokens` — the calls up to the first one that gives no
  token, and how many they are.

A call of `next` skips a gap and reads a token behind it. The gap is as long as it can be, so that
the character behind it begins no gap. This leaves three cases, which depend on this character
alone: there is none, it begins a token, or it does not. In the second case a token or an error is
found, and either uses up the character at least; in the two others the cursor comes to a halt
behind the gap, where the next call finds an empty gap and the same character. `Answer` has one
constructor for each case and carries what has been used up.

The number of tokens is bounded by the number of characters then, since each token costs one, and
call after call agrees with reading all tokens at once by an induction along that reading.
-/

/-! ### First characters -/

/-- The character begins a gap, as a blank or as the mark of a comment. -/
def BeginsGap (c : Char) : Prop := (c = ' ' ∨ c = '\t' ∨ c = '\r') ∨ c = '#' ∨ c = ';'

/-- The character begins a token: the end of a line, a directive, a string, a number or a name. -/
def BeginsToken (c : Char) : Prop :=
  c = '\n' ∨ c = '.' ∨ c = '"' ∨ (c = '-' ∨ c = '+') ∨ c.isDigit = true ∨ isNameStart c = true

/-- Outside of comments, the characters that begin a gap are those that continue one. -/
theorem step?_eq_none {c : Char} : GapState.blank.step? c = none ↔ ¬ BeginsGap c := by
  by_cases hblank : c = ' ' ∨ c = '\t' ∨ c = '\r'
  · simp only [GapState.step?, BeginsGap, hblank, if_true, true_or, reduceCtorEq, not_true]
  by_cases hmark : c = '#' ∨ c = ';'
  · simp only [GapState.step?, BeginsGap, hblank, hmark, if_true, if_false, or_true, reduceCtorEq,
      not_true]
  · simp only [GapState.step?, BeginsGap, hblank, hmark, if_false, or_false, not_false_iff]

/-- A gap is as long as it can be: a comment ends only in front of a newline, and blanks end only in
    front of what is neither a blank nor the mark of a comment. -/
theorem not_beginsGap_of_splitGap (state : GapState) (text : List Char) :
    ∀ c ∈ (splitGap state text).2.head?, ¬ BeginsGap c := by
  fun_induction splitGap state text with
  | case1 => simp
  | case2 state c cs next step ih => exact ih
  | case3 state c cs step =>
    intro d hd
    obtain rfl := Option.some.inj hd
    rw [← step?_eq_none]
    cases state with
    | blank => exact step
    | comment =>
      -- A comment ends with its line, and a newline begins no other gap.
      obtain rfl : c = '\n' := by simpa [GapState.step?] using step
      rfl

/-- A character that begins no token is left where it is. -/
theorem readLexeme_of_not_beginsToken {c : Char} (h : ¬ BeginsToken c) (text : List Char) :
    readLexeme (c :: text) = ⟨.error (.unexpectedCharacter c), [], c :: text⟩ := by
  simp only [BeginsToken, not_or] at h
  simp [readLexeme, h]

/-- No character is unexpected in the body of a string. It can only have a newline too early, an
    escape that means nothing, or no end. -/
theorem readBody_ne_unexpected (text : List Char) (c : Char) :
    (readBody text).reading ≠ .error (.unexpectedCharacter c) := by
  fun_induction readBody text with
  | case1 | case2 | case3 | case4 | case6 => simp
  | case5 _ _ _ _ _ _ ih => exact fun read => ih (reading_extend_error read)
  | case7 _ _ _ _ _ ih => exact fun read => ih (reading_extend_error read)

/-- A character that begins a token belongs to what is read, and is not unexpected. What begins with
    it may still be refused, but not without having used up this character. -/
theorem readLexeme_of_beginsToken {c : Char} (h : BeginsToken c) (text : List Char) :
    (∃ spelling, (readLexeme (c :: text)).spelling = c :: spelling) ∧
      ∀ d, (readLexeme (c :: text)).reading ≠ .error (.unexpectedCharacter d) := by
  rcases h with rfl | rfl | rfl | sign | digit | start
  · exact ⟨⟨[], rfl⟩, fun d => by simp [readLexeme]⟩
  · refine ⟨⟨_, rfl⟩, fun d => ?_⟩
    show (readDirective text).reading ≠ _
    simp only [readDirective]
    split <;> simp
  · exact ⟨⟨_, rfl⟩, fun d read => readBody_ne_unexpected text d (reading_extend_error read)⟩
  · have hsigned : readLexeme (c :: text) = readSigned c text := by
      rcases sign with rfl | rfl <;> rfl
    rw [hsigned]
    refine ⟨⟨_, rfl⟩, fun d => ?_⟩
    simp only [readSigned]
    split <;> simp
  -- A run of no characters would leave the lexer where it is, so the first one has to be in it.
  · rw [readLexeme_digit digit]
    exact ⟨⟨_, List.takeWhile_cons_of_pos digit⟩, fun d => by simp [readRun]⟩
  · rw [readLexeme_nameStart start]
    exact ⟨⟨_, List.takeWhile_cons_of_pos (isNameChar_of_isNameStart start)⟩,
      fun d => by simp [readRun]⟩

/-! ### Calls -/

/-- The outcomes that use up nothing but a gap: the end of the input, and a character that begins no
    token. -/
def IsIdle : Except Error Token → Prop
  | .ok token => token.kind = .endOfInput
  | .error (.lexical _ (.unexpectedCharacter _)) => True
  | .error _ => False

/-- The outcomes behind which a text is not read any further: its end, and any error. -/
def IsLast : Except Error Token → Prop
  | .ok token => token.kind = .endOfInput
  | .error _ => True

namespace Cursor

/-- What a call of `next` can come to: its outcome, and the cursor behind it. -/
inductive Answer (cursor : Cursor) : Except Error Token × Cursor → Prop
  /-- It uses up a gap and at least one character more, with which a token begins. -/
  | advances {gap spelling rest : List Char} {c : Char} {outcome : Except Error Token}
      (hrest : cursor.rest = gap ++ c :: spelling ++ rest)
      (hgap : IsGap (c :: spelling ++ rest) gap) (hfirst : ¬ BeginsGap c ∧ BeginsToken c)
      (houtcome : ¬ IsIdle outcome) :
      Answer cursor (outcome, ⟨rest, cursor.position.after (gap ++ c :: spelling)⟩)
  /-- It finds a gap and the end of the input behind it. -/
  | ends (hgap : IsGap [] cursor.rest) :
      Answer cursor (.ok ⟨.endOfInput, "", cursor.finish⟩, ⟨[], cursor.finish⟩)
  /-- It finds a gap and a character behind it with which no token begins. -/
  | stops {gap rest : List Char} {c : Char} (hrest : cursor.rest = gap ++ c :: rest)
      (hgap : IsGap (c :: rest) gap) (hfirst : ¬ BeginsGap c ∧ ¬ BeginsToken c) :
      Answer cursor (.error (.lexical (cursor.position.after gap) (.unexpectedCharacter c)),
        ⟨c :: rest, cursor.position.after gap⟩)

variable {cursor stop : Cursor} {outcome : Except Error Token} {c : Char} {rest : List Char}

/-- Behind a gap there is no other gap. -/
theorem skipGap_skipGap (cursor : Cursor) : cursor.skipGap.skipGap = cursor.skipGap := by
  have hgap : splitGap .blank cursor.skipGap.rest = ([], cursor.skipGap.rest) :=
    IsGap.nil.splitGap_eq fun c hc =>
      step?_eq_none.mpr (not_beginsGap_of_splitGap .blank cursor.rest c hc)
  rw [skipGap, hgap, Position.after_nil]

/-- It makes no difference whether the gap has been skipped already. -/
theorem next_skipGap (cursor : Cursor) : cursor.skipGap.next = cursor.next := by
  rw [next, next, skipGap_skipGap]

/-- Whatever the outcome, the next call goes on behind what has been read. -/
theorem snd_next (cursor : Cursor) :
    cursor.next.2 = ⟨(readLexeme cursor.skipGap.rest).rest,
      cursor.skipGap.position.after (readLexeme cursor.skipGap.rest).spelling⟩ := by
  simp only [next]
  split <;> rfl

/-- A gap that reaches the end of the input is skipped up to the place where the input ends. -/
theorem skipGap_of_nil (h : cursor.skipGap.rest = []) : cursor.skipGap = ⟨[], cursor.finish⟩ := by
  rw [← finish_skipGap, finish, h, Position.after_nil, ← h]

/-- With nothing but a gap in front, a call gives the end of the input and leaves the cursor
    there. -/
theorem next_of_nil (h : cursor.skipGap.rest = []) :
    cursor.next = (.ok ⟨.endOfInput, "", cursor.finish⟩, ⟨[], cursor.finish⟩) := by
  have lexeme : readLexeme cursor.skipGap.rest = ⟨.ok (.endOfInput, ""), [], []⟩ := by
    rw [h]
    rfl
  rw [next_of_lexeme lexeme rfl, skipGap_of_nil h, Position.after_nil]

/-- A character that begins no token is reported where it stands, and the cursor stays in front of
    it. -/
theorem next_of_unexpected (h : cursor.skipGap.rest = c :: rest) (hc : ¬ BeginsToken c) :
    cursor.next = (.error (.lexical cursor.skipGap.position (.unexpectedCharacter c)),
      cursor.skipGap) := by
  have hlexeme := readLexeme_of_not_beginsToken hc rest
  rw [← h] at hlexeme
  simp only [next, hlexeme, Position.after_nil]
  rfl

/-- A call that has a character to begin with is not idle. It is not at the end of the input, and
    the character is not one that begins no token. -/
theorem not_isIdle_of_beginsToken (h : cursor.skipGap.rest = c :: rest) (hc : BeginsToken c)
    (read : cursor.next = (outcome, stop)) : ¬ IsIdle outcome := by
  cases outcome with
  | ok token =>
    intro ended
    obtain ⟨_, rfl, reading, -, -⟩ := lexeme_of_next read
    rw [show token.kind = .endOfInput from ended] at reading
    exact absurd (h.symm.trans (eq_nil_of_endOfInput reading)) (List.cons_ne_nil c rest)
  | error error =>
    obtain ⟨fault, reading, rfl⟩ := fault_of_next read
    rw [h] at reading
    cases fault with
    | unexpectedCharacter d => exact absurd reading ((readLexeme_of_beginsToken hc rest).2 d)
    | _ => exact id

/-- A call that has a character to begin with uses it up. -/
theorem exists_spelling (h : cursor.skipGap.rest = c :: rest) (hc : BeginsToken c)
    (read : cursor.next = (outcome, stop)) :
    ∃ spelling, cursor.skipGap.rest = c :: spelling ++ stop.rest ∧
      stop.position = cursor.skipGap.position.after (c :: spelling) := by
  obtain ⟨spelling, hspelling⟩ := (readLexeme_of_beginsToken hc rest).1
  rw [← h] at hspelling
  obtain rfl : stop = _ := (congrArg Prod.snd read).symm.trans (snd_next cursor)
  refine ⟨spelling, ?_, by rw [hspelling]⟩
  rw [← hspelling]
  exact (readLexeme_append cursor.skipGap.rest).symm

/-- Every call uses up characters of more than a gap, or there is no token behind the gap. -/
theorem answer_next (cursor : Cursor) : cursor.Answer cursor.next := by
  have hsplit : cursor.rest = _ ++ cursor.skipGap.rest := (splitGap_append .blank cursor.rest).symm
  have hgap : IsGap cursor.skipGap.rest _ := isGap_splitGap cursor.rest
  have hfirst : ∀ c ∈ cursor.skipGap.rest.head?, ¬ BeginsGap c :=
    not_beginsGap_of_splitGap .blank cursor.rest
  -- The gap is as long as it can be, so the character behind it decides.
  cases h : cursor.skipGap.rest with
  | nil =>
    rw [h, List.append_nil] at hsplit
    rw [h, ← hsplit] at hgap
    rw [next_of_nil h]
    exact .ends hgap
  | cons c rest =>
    rw [h] at hsplit hgap hfirst
    by_cases hc : BeginsToken c
    case pos =>
      rcases read : cursor.next with ⟨outcome, behind, position⟩
      obtain ⟨spelling, hspelling, hposition⟩ := exists_spelling h hc read
      rw [← h, hspelling] at hsplit hgap
      rw [← List.append_assoc] at hsplit
      rw [skipGap, ← Position.after_append] at hposition
      subst hposition
      exact .advances hsplit hgap ⟨hfirst c rfl, hc⟩ (not_isIdle_of_beginsToken h hc read)
    case neg =>
      have hskip : cursor.skipGap =
          ⟨c :: rest, cursor.position.after (splitGap .blank cursor.rest).1⟩ := by
        rw [← h]
        rfl
      rw [next_of_unexpected h hc, hskip]
      exact .stops hsplit hgap ⟨hfirst c rfl, hc⟩

/-! ### Call after call -/

/-- The cursor behind the next token or behind what is wrong there. -/
def onward (cursor : Cursor) : Cursor := cursor.next.2

/-- An idle call leads behind the gap and no further. In front of a character that begins a token it
    would not be idle. -/
theorem onward_of_isIdle (h : IsIdle cursor.next.1) : cursor.onward = cursor.skipGap := by
  cases hrest : cursor.skipGap.rest with
  | nil => rw [onward, next_of_nil hrest, skipGap_of_nil hrest]
  | cons c rest =>
    by_cases hc : BeginsToken c
    · exact absurd h (not_isIdle_of_beginsToken hrest hc rfl)
    · rw [onward, next_of_unexpected hrest hc]

/-- What comes behind an idle call is the same call again, for ever. -/
theorem next_iterate_onward (h : IsIdle cursor.next.1) (calls : Nat) :
    (onward^[calls] cursor).next = cursor.next := by
  induction calls generalizing cursor with
  | zero => rfl
  | succ calls ih =>
    have hagain : cursor.onward.next = cursor.next := by rw [onward_of_isIdle h, next_skipGap]
    rw [Function.iterate_succ_apply, ih (by rwa [hagain]), hagain]

/-- There are no more tokens than characters, as each token uses up one at least, whatever gaps
    there are. -/
theorem length_tokens_le (cursor : Cursor) : cursor.tokens.tokens.length ≤ cursor.rest.length := by
  fun_induction tokens cursor with
  | case1 | case2 => exact Nat.zero_le _
  | case3 cursor token stop read more _ following ih =>
    have hless := length_rest_next_lt read more
    simp only [List.length_cons, following]
    omega

/-- The tokens of a text are the outcomes of as many calls, each of them another token than the end
    of the input. The call behind them gives the end or an error. -/
theorem calls_tokens (cursor : Cursor) :
    (∀ i token, cursor.tokens.tokens[i]? = some token →
      (onward^[i] cursor).next.1 = .ok token ∧ token.kind ≠ .endOfInput) ∧
    IsLast (onward^[cursor.tokens.tokens.length] cursor).next.1 := by
  -- The induction follows the reading of all tokens, in which each step is one call.
  fun_induction tokens cursor with
  | case1 cursor fault stop read => simp [read, IsLast]
  | case2 cursor token stop read ended => simp [read, IsLast, ended]
  | case3 cursor token stop read more _ following ih =>
    have honward : cursor.onward = stop := by rw [onward, read]
    refine ⟨fun i other hother => ?_, ?_⟩
    · cases i with
      | zero =>
        obtain rfl := Option.some.inj hother
        exact ⟨by rw [Function.iterate_zero_apply, read], more⟩
      | succ i =>
        rw [Function.iterate_succ_apply, honward]
        exact ih.1 i other hother
    · rw [List.length_cons, Function.iterate_succ_apply, honward]
      exact ih.2

end Cursor

end Schematic.Netlist
