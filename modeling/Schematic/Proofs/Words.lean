import Mathlib.Data.List.Forall2
import Mathlib.Data.List.TakeWhile
import Schematic.Netlist.Printer
import Schematic.Proofs.LineByLine
import Schematic.Proofs.Numerals

namespace Schematic.Netlist

open Text

/-!
# Words

The words of a written netlist are read as one token each.

* `isName` — the texts that are written as names;
* `Spells` — a word that is read as a certain token in front of anything that does not continue it;
* `spells_name`, `spells_directive`, `spells_numeral`, `spells_string` — the words that there are;
* `readEntries_of_words` — a line of words is read from the tokens that its words mean.

A word is read on its own by a lexer that does not know where words end; it goes on as long as
characters continue what it has begun. So the statement about a word has to hold in front of any
text that does not go on with a name character, which is what a space or the end of a line does.
Given this, a line of words is read from the left: skip the space, read the word, and go on behind
it, by induction on the words. The positions are left open, since the readers of lines look at
kinds, texts and line numbers only.
-/

/-! ### Runs of characters -/

/-- A text that is written as a name: a letter or an underscore, then letters, digits and
    underscores. -/
def isName (text : String) : Bool :=
  match text.toList with
  | [] => false
  | c :: cs => isNameStart c && cs.all isNameChar

/-- The text does not begin with a character that would continue a name or a number. -/
def EndsWord (rest : List Char) : Prop := ∀ c ∈ rest.head?, isNameChar c = false

/-- The end of the text ends a word. -/
theorem endsWord_nil : EndsWord [] := by simp [EndsWord]

/-- A space ends a word. -/
theorem endsWord_space (rest : List Char) : EndsWord (' ' :: rest) := by
  simp only [EndsWord, List.head?_cons, Option.mem_some_iff, forall_eq']
  decide +kernel

/-- A digit continues a name, so that it does not end a word. -/
theorem isNameChar_of_isDigit {c : Char} (h : c.isDigit = true) : isNameChar c = true := by
  have ascii : c.toNat < 128 := by rw [isDigit_iff] at h; omega
  simp [isNameChar, isAlphanumeric, isNumeric, ascii, h]

/-- No digit begins a name. -/
theorem isDigit_of_isNameStart {c : Char} (h : isNameStart c = true) : c.isDigit = false := by
  refine Bool.eq_false_iff.mpr fun digit => ?_
  have range := isDigit_iff.mp digit
  have letter : c.isAlpha = false := by
    change (decide ('A'.val ≤ c.val ∧ c.val ≤ 'Z'.val) ||
      (decide ('a'.val ≤ c.val) && decide (c.val ≤ 'z'.val))) = false
    simp only [UInt32.le_iff_toNat_le, Bool.or_eq_false_iff, Bool.and_eq_false_iff,
      decide_eq_false_iff_not]
    change ¬ (65 ≤ c.toNat ∧ c.toNat ≤ 90) ∧ (¬ 97 ≤ c.toNat ∨ ¬ c.toNat ≤ 122)
    omega
  have underscore : c ≠ '_' := by rintro rfl; simp at digit
  simp [isNameStart, isAlphabetic, letter, underscore, show c.toNat < 128 by omega] at h

/-- What begins with a digit is a number. -/
theorem readLexeme_digit {c : Char} (h : c.isDigit = true) (text : List Char) :
    readLexeme (c :: text) = readRun .number Char.isDigit (c :: text) := by
  have other : c ≠ '\n' ∧ c ≠ '.' ∧ c ≠ '"' ∧ c ≠ '-' ∧ c ≠ '+' := by
    refine ⟨?_, ?_, ?_, ?_, ?_⟩ <;> rintro rfl <;> revert h <;> decide
  simp [readLexeme, other, h]

/-- What begins as a name is an identifier. -/
theorem readLexeme_nameStart {c : Char} (h : isNameStart c = true) (text : List Char) :
    readLexeme (c :: text) = readRun .identifier isNameChar (c :: text) := by
  have other : c ≠ '\n' ∧ c ≠ '.' ∧ c ≠ '"' ∧ c ≠ '-' ∧ c ≠ '+' := by
    refine ⟨?_, ?_, ?_, ?_, ?_⟩ <;> rintro rfl <;> revert h <;> decide +kernel
  simp [readLexeme, other, isDigit_of_isNameStart h, h]

/-- A run of characters is taken as a whole in front of anything that does not continue it. -/
theorem takeWhile_run {p : Char → Bool} {word rest : List Char} (hword : ∀ c ∈ word, p c = true)
    (hrest : ∀ c ∈ rest.head?, p c = false) :
    (word ++ rest).takeWhile p = word ∧ (word ++ rest).dropWhile p = rest := by
  rw [List.takeWhile_append_of_pos hword, List.dropWhile_append_of_pos hword]
  cases rest with
  | nil => simp
  | cons c rest => simp [hrest c rfl]

/-- A run is read up to where it ends, in front of anything that does not continue it. -/
theorem readRun_append {p : Char → Bool} {word rest : List Char} (kind : TokenKind)
    (hword : ∀ c ∈ word, p c = true) (hrest : ∀ c ∈ rest.head?, p c = false) :
    readRun kind p (word ++ rest) = ⟨.ok (kind, String.ofList word), word, rest⟩ := by
  obtain ⟨taken, dropped⟩ := takeWhile_run hword hrest
  rw [readRun, taken, dropped]

/-! ### Words and their tokens -/

/-- The word is read as a token of the given kind and text, in front of anything that does not
    continue it. -/
structure Spells (word : List Char) (kind : TokenKind) (text : String) : Prop where
  inLine : kind ≠ .newline
  reads : ∀ rest, EndsWord rest → readLexeme (word ++ rest) = ⟨.ok (kind, text), word, rest⟩

/-- A name is one identifier. Its first character decides what is read, and all its characters
    belong to the run that follows. -/
theorem spells_name {text : String} (h : isName text = true) :
    Spells text.toList .identifier text where
  inLine := by decide
  reads rest ends := by
    rw [isName] at h
    split at h
    · simp at h
    · next c cs word =>
      rw [Bool.and_eq_true, List.all_eq_true] at h
      have run : ∀ d ∈ c :: cs, isNameChar d = true :=
        List.forall_mem_cons.mpr ⟨isNameChar_of_isNameStart h.1, h.2⟩
      rw [word, List.cons_append, readLexeme_nameStart h.1, ← List.cons_append,
        readRun_append _ run ends, ← word, String.ofList_toList]

/-- A dot with name characters behind it is one directive. The first of them may be a digit, unlike
    that of a name. -/
theorem spells_directive (name : List Char) (nonempty : name ≠ [])
    (h : ∀ c ∈ name, isNameChar c = true) :
    Spells ('.' :: name) .directive (String.ofList ('.' :: name)) where
  inLine := by decide
  reads rest ends := by
    obtain ⟨taken, dropped⟩ := takeWhile_run h ends
    simp [readLexeme, readDirective, taken, dropped, nonempty]

/-- A numeral is one number. A sign is always read with the digits behind it, since there is at
    least one. -/
theorem spells_numeral (numeral : Numeral) : Spells numeral.chars .number numeral.text where
  inLine := by decide
  reads rest ends := by
    have stop : ∀ c ∈ rest.head?, c.isDigit = false := fun c hc =>
      Bool.eq_false_iff.mpr fun digit =>
        Bool.eq_false_iff.mp (ends c hc) (isNameChar_of_isDigit digit)
    rw [Numeral.text, Numeral.chars]
    -- Without a sign the numeral begins with a digit, and with one the sign is read first.
    cases numeral.sign with
    | none =>
      obtain ⟨c, cs, word, -, -⟩ := numeral.exists_cons
      have digits := numeral.areDigits
      rw [word] at digits ⊢
      rw [Sign.chars, List.nil_append, List.cons_append,
        readLexeme_digit (digits c List.mem_cons_self), ← List.cons_append,
        readRun_append _ digits stop]
    | plus | minus =>
      obtain ⟨taken, dropped⟩ := takeWhile_run numeral.areDigits stop
      simp [Sign.chars, readLexeme, readSigned, taken, dropped, numeral.nonempty]

/-- The decimal form of an integer is one number. -/
theorem spells_integer (i : Int) : Spells (toString i).toList .number (toString i) := by
  have h := spells_numeral (.ofInt i)
  rwa [← Numeral.toList_text, Numeral.text_ofInt] at h

/-- A character is read behind its escape, or as itself. Only newlines, tabs, quotes and backslashes
    need an escape, and each has one. -/
theorem readBody_escape_append (c : Char) (text : List Char) :
    readBody (escape c ++ text) = (readBody text).extend (escape c) (c :: ·) := by
  by_cases newline : c = '\n'
  · subst newline
    exact readBody_escape rfl text
  by_cases tab : c = '\t'
  · subst tab
    exact readBody_escape rfl text
  by_cases special : c = '"' ∨ c = '\\'
  · have meant : unescape? c = some c := by
      rcases special with rfl | rfl <;> rfl
    simpa [escape, newline, tab, special] using readBody_escape meant text
  · simp only [escape, newline, tab, special, if_false]
    rw [not_or] at special
    exact readBody_plain ⟨special.1, newline, special.2⟩ text

/-- The escaped form of a text is read back up to the closing quote. -/
theorem readBody_flatMap_escape (text rest : List Char) :
    readBody (text.flatMap escape ++ '"' :: rest) =
      ⟨.ok text, text.flatMap escape ++ ['"'], rest⟩ := by
  induction text with
  | nil => simp
  | cons c text ih =>
    rw [List.flatMap_cons, List.append_assoc, readBody_escape_append, ih]
    simp [Lexeme.extend, Except.map]

/-- A text in quotes and with its escapes is one string. -/
theorem spells_string (text : String) : Spells (writeString text).toList .string text where
  inLine := by decide
  reads rest _ := by
    simp [writeString, readLexeme, readBody_flatMap_escape, Lexeme.extend, Except.map]

/-! ### Words in a line -/

/-- What is skipped in a gap begins no token. So in front of anything that is read as a token the
    gap has come to its end. -/
theorem step?_of_readLexeme {c : Char} {text : List Char} {kind : TokenKind} {word : String}
    (read : (readLexeme (c :: text)).reading = .ok (kind, word)) :
    GapState.blank.step? c = none := by
  -- The characters of a gap are refused by the lexer, so that none of them begins a token.
  have refused : ∀ d ∈ [' ', '\t', '\r', '#', ';'],
      (readLexeme (d :: text)).reading = .error (.unexpectedCharacter d) := by
    intro d hd
    have start : [' ', '\t', '\r', '#', ';'].all (!isNameStart ·) = true := by decide +kernel
    have name : isNameStart d = false := by simpa using List.all_eq_true.mp start d hd
    simp only [List.mem_cons, List.not_mem_nil, or_false] at hd
    rcases hd with rfl | rfl | rfl | rfl | rfl <;> simp [readLexeme, name]
  have other : c ∉ [' ', '\t', '\r', '#', ';'] := by
    intro hc
    rw [refused c hc] at read
    simp at read
  simp only [List.mem_cons, List.not_mem_nil, or_false, not_or] at other
  simp [GapState.step?, other]

/-- A string that is read with characters in front of it has been read without them. -/
theorem reading_extend {α β : Type} {lexeme : Lexeme α} {front : List Char} {f : α → β} {value : β}
    (read : (lexeme.extend front f).reading = .ok value) :
    ∃ part, lexeme.reading = .ok part ∧ f part = value := by
  cases h : lexeme.reading with
  | ok part => exact ⟨part, rfl, by simpa [Lexeme.extend, h, Except.map] using read⟩
  | error fault => simp [Lexeme.extend, h, Except.map] at read

/-- No string has an unescaped newline in it, and an escaped one is spelled with a letter. -/
theorem newline_not_mem_readBody {text body : List Char}
    (read : (readBody text).reading = .ok body) : '\n' ∉ (readBody text).spelling := by
  fun_induction readBody text generalizing body with
  | case1 => simp at read
  | case2 text => simp
  | case3 text => simp
  | case4 => simp
  | case5 c text meant escape _ _ ih =>
    obtain ⟨part, inner, -⟩ := reading_extend read
    have plain : c ≠ '\n' := by rintro rfl; simp [unescape?] at escape
    simpa [Lexeme.extend, plain.symm] using ih inner
  | case6 c text escape => simp at read
  | case7 c text quote newline backslash ih =>
    obtain ⟨part, inner, -⟩ := reading_extend read
    simpa [Lexeme.extend, Ne.symm newline] using ih inner

/-- No token other than the end of a line has a newline in it, and so the ends of lines among the
    tokens are all newlines that count. -/
theorem newline_not_mem_readLexeme {text : List Char} {kind : TokenKind} {word : String}
    (read : (readLexeme text).reading = .ok (kind, word)) (inLine : kind ≠ .newline) :
    '\n' ∉ (readLexeme text).spelling := by
  have name (text : List Char) : '\n' ∉ text.takeWhile isNameChar := fun h =>
    absurd (List.mem_takeWhile_imp h) (by decide +kernel)
  have number (text : List Char) : '\n' ∉ text.takeWhile Char.isDigit := fun h =>
    absurd (List.mem_takeWhile_imp h) (by decide)
  -- By what the first character begins: runs of names and digits stop at a newline, and a string is
  -- closed in front of it.
  fun_cases readLexeme text with
  | case1 => simp
  | case2 text =>
    simp only [readLexeme, if_true, Except.ok.injEq, Prod.mk.injEq] at read
    exact absurd read.1.symm inLine
  | case3 text => simpa [readDirective] using name text
  | case4 text =>
    obtain ⟨part, inner, -⟩ := reading_extend read
    simpa [Lexeme.extend] using newline_not_mem_readBody inner
  | case5 c text newline => simpa [readSigned, Ne.symm newline] using number text
  | case6 c text => exact number (c :: text)
  | case7 c text => exact name (c :: text)
  | case8 c text => simp

namespace Spells

variable {word : List Char} {kind : TokenKind} {text : String}

/-- A word alone is read as its token, with nothing left over. -/
theorem readLexeme_self (h : Spells word kind text) :
    readLexeme word = ⟨.ok (kind, text), word, []⟩ := by
  simpa using h.reads [] endsWord_nil

/-- A word is not empty, and it does not begin with what is skipped in a gap. -/
theorem begins (h : Spells word kind text) :
    ∃ c cs, word = c :: cs ∧ GapState.blank.step? c = none := by
  cases word with
  | nil =>
    have space := h.reads [' '] (endsWord_space [])
    have step := step?_of_readLexeme (congrArg Lexeme.reading space)
    simp [GapState.step?] at step
  | cons c cs => exact ⟨c, cs, rfl, step?_of_readLexeme (congrArg Lexeme.reading h.readLexeme_self)⟩

/-- A word is not the end of the input. -/
theorem ne_endOfInput (h : Spells word kind text) : kind ≠ .endOfInput := by
  rintro rfl
  obtain ⟨c, cs, rfl, -⟩ := h.begins
  have empty := eq_nil_of_endOfInput (congrArg Lexeme.reading h.readLexeme_self)
  simp at empty

/-- A word has no newline in it. -/
theorem newline_not_mem (h : Spells word kind text) : '\n' ∉ word := by
  have whole := h.readLexeme_self
  simpa [whole] using newline_not_mem_readLexeme (congrArg Lexeme.reading whole) h.inLine

/-- A word behind some spaces is the next token, with nothing of what follows it. The position
    counts the spaces, and then the characters of the word. -/
theorem next_eq (h : Spells word kind text) {gap rest : List Char} (spaces : ∀ c ∈ gap, c = ' ')
    (ends : EndsWord rest) (position : Position) :
    (⟨gap ++ (word ++ rest), position⟩ : Cursor).next =
      (.ok ⟨kind, text, position.after gap⟩, ⟨rest, (position.after gap).after word⟩) := by
  -- The spaces are skipped up to the first character of the word, which is none.
  have skipped : splitGap .blank (gap ++ (word ++ rest)) = (gap, word ++ rest) := by
    induction gap with
    | nil =>
      obtain ⟨c, cs, rfl, step⟩ := h.begins
      simp [splitGap, step]
    | cons c gap ih =>
      obtain rfl : c = ' ' := spaces c (by simp)
      have tail := ih fun d hd => spaces d (List.mem_cons_of_mem _ hd)
      simp [splitGap, GapState.step?, tail]
  have start : (⟨gap ++ (word ++ rest), position⟩ : Cursor).skipGap =
      ⟨word ++ rest, position.after gap⟩ := by
    rw [Cursor.skipGap, skipped]
  have lexeme : readLexeme (⟨gap ++ (word ++ rest), position⟩ : Cursor).skipGap.rest =
      ⟨.ok (kind, text), word, rest⟩ := by
    rw [start, h.reads rest ends]
  rw [Cursor.next_of_lexeme lexeme rfl, start]

end Spells

/-! ### Lines of words -/

/-- The word is read as a token of this kind and text. -/
def Means (word : String) (meaning : TokenKind × String) : Prop :=
  Spells word.toList meaning.1 meaning.2

/-- A token in the given line, of the given kind and text. -/
structure Token.Carries (line : Nat) (token : Token) (meaning : TokenKind × String) : Prop where
  kind : token.kind = meaning.1
  text : token.text = meaning.2
  line : token.line = line
  inLine : token.kind ≠ .newline

/-- The text is read as tokens of these kinds and texts, all of them on the line where it begins. -/
def ReadsAs (text : List Char) (meanings : List (TokenKind × String)) : Prop :=
  ∀ position : Position, ∃ tokens, (⟨text, position⟩ : Cursor).tokens = ⟨tokens, none⟩ ∧
    List.Forall₂ (Token.Carries position.line) tokens meanings

/-- Without words there are no tokens. -/
theorem ReadsAs.nil : ReadsAs [] [] := fun _ => ⟨[], by rw [Cursor.tokens_eq]; rfl, .nil⟩

/-- A word and what it does not run into are read one after the other, and both are on the same
    line. -/
theorem ReadsAs.cons {word : String} {meaning : TokenKind × String} {rest : List Char}
    {meanings : List (TokenKind × String)} (gap : List Char) (head : Means word meaning)
    (spaces : ∀ c ∈ gap, c = ' ') (ends : EndsWord rest) (tail : ReadsAs rest meanings) :
    ReadsAs (gap ++ (word.toList ++ rest)) (meaning :: meanings) := by
  intro position
  -- Neither spaces nor words have a newline in them, so the line stays the same.
  have onLine : (position.after gap).line = position.line := by
    rw [Position.line_after, List.count_eq_zero_of_not_mem]
    · rfl
    · exact fun newline => absurd (spaces _ newline) (by decide)
  have behind : ((position.after gap).after word.toList).line = position.line := by
    rw [Position.line_after, List.count_eq_zero_of_not_mem head.newline_not_mem, onLine]
    rfl
  obtain ⟨tokens, following, carried⟩ := tail ((position.after gap).after word.toList)
  refine ⟨⟨meaning.1, meaning.2, position.after gap⟩ :: tokens, ?_,
    .cons ⟨rfl, rfl, onLine, head.inLine⟩ ?_⟩
  · rw [Cursor.tokens_eq, head.next_eq spaces ends]
    simp only [head.ne_endOfInput, if_false, following]
  · rwa [behind] at carried

/-- The words with a space in front of each. -/
def spaced (words : List String) : List Char := words.flatMap fun word => ' ' :: word.toList

/-- Words with spaces in front of them do not continue the word before them. -/
theorem endsWord_spaced (words : List String) : EndsWord (spaced words) := by
  cases words with
  | nil => exact endsWord_nil
  | cons word words => exact endsWord_space _

/-- Words with spaces in front of them are read one by one. By induction on the words. -/
theorem readsAs_spaced {words : List String} {meanings : List (TokenKind × String)}
    (h : List.Forall₂ Means words meanings) : ReadsAs (spaced words) meanings := by
  induction h with
  | nil => exact .nil
  | @cons word meaning words meanings head _ ih =>
    exact .cons [' '] head (by simp) (endsWord_spaced words) ih

/-- Words with single spaces between them are the first word and the others with spaces in front of
    them. -/
theorem toList_intercalate (word : String) (words : List String) :
    (" ".intercalate (word :: words)).toList = word.toList ++ spaced words := by
  rw [String.toList_intercalate]
  induction words generalizing word with
  | nil => simp [spaced, List.intercalate]
  | cons next words ih =>
    have tail := ih next
    simp only [List.map_cons] at tail ⊢
    rw [List.intercalate_cons_cons, tail]
    simp [spaced]

/-- Words with a space between any two of them are read one by one. -/
theorem readsAs_intercalate {words : List String} {meanings : List (TokenKind × String)}
    (h : List.Forall₂ Means words meanings) : ReadsAs (" ".intercalate words).toList meanings := by
  cases h with
  | nil => exact .nil
  | @cons word meaning words meanings head tail =>
    rw [toList_intercalate]
    exact .cons [] head (by simp) (endsWord_spaced words) (readsAs_spaced tail)

/-- A line of words has no newline in it, so that what is written behind it is one line further
    down. -/
theorem newlines_intercalate {words : List String} {meanings : List (TokenKind × String)}
    (h : List.Forall₂ Means words meanings) : newlines (" ".intercalate words) = 0 := by
  have inside : '\n' ∉ spaced words := by
    induction h with
    | nil => simp [spaced]
    | cons head _ ih => simpa [spaced] using ⟨head.newline_not_mem, by simpa [spaced] using ih⟩
  refine List.count_eq_zero_of_not_mem fun newline => inside ?_
  cases words with
  | nil => exact newline
  | cons word words =>
    rw [toList_intercalate] at newline
    exact List.mem_cons_of_mem ' ' newline

/-- The tokens of a line of words are one line. -/
theorem splitLines_of_carries {line : Nat} {tokens : List Token}
    {meanings : List (TokenKind × String)} (h : List.Forall₂ (Token.Carries line) tokens meanings) :
    splitLines tokens = [tokens] := by
  induction h with
  | nil => rfl
  | cons head _ ih => simp [splitLines, head.inLine, ih]

/-- The entry of a line of words is what its tokens are read as. The words alone decide what tokens
    there are. -/
theorem readEntries_of_words {words : List String} {meanings : List (TokenKind × String)}
    {entry : Entry} (h : List.Forall₂ Means words meanings)
    (read : ∀ tokens, List.Forall₂ (Token.Carries 1) tokens meanings →
      parseLine none tokens = .ok (some entry)) :
    readEntries (.ofText (" ".intercalate words)) = .ok [entry] := by
  obtain ⟨tokens, lexed, carried⟩ := readsAs_intercalate h .start
  have parsed := read tokens carried
  rw [readEntries, Cursor.ofText, lexed, splitLines_of_carries carried, parseLines, parsed]
  rfl

end Schematic.Netlist
