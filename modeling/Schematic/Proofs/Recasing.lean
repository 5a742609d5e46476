import Schematic.Proofs.LetterCase
import Schematic.Proofs.Relayout

namespace Schematic.Netlist

open Text

/-!
# Texts in another case

A text whose tokens have their letters in another case is read as the same tokens in the same
places, with their letters in that case.

* `Token.SpelledAs.readLexeme_eq` — what a spelling is read as;
* `Piece.Recased`, `Token.Recased` — a piece and a token in another case;
* `Cursor.Lexes.recased` — from another case of a text, tokens are read in that case;
* `Recasing`, `Recasing.lexes`, `Recasing.tokens_recased` — the same for whole texts.

A text is cut into pieces, each of them a gap and the spelling of one token behind it. A recasing
keeps the gaps and puts another spelling in place of each, with the same letters in another case. To
see that the new text is read as the new pieces, one goes from piece to piece: a spelling is read up
to where it was read before, since whether a character continues a token does not depend on its
case, and the gap behind it stays a gap.

Strings are the exception. The letters behind a backslash do not mean the same in another case, so
the cases of a string and of any other token are apart throughout: a string is known by its quotes
and its body (`readLexeme_string`), and any other token by its text, which is its spelling
(`eq_toList`).
-/

/-! ### Gaps -/

/-- Within a line, the column counts the characters. So the column of a token tells how long the gap
    in front of it is. -/
theorem column_behind_append {front gap : List Char} (h : '\n' ∉ gap) :
    (Position.behind (front ++ gap)).column = (Position.behind front).column + gap.length := by
  have hline : ∀ c ∈ gap.reverse, decide (c ≠ '\n') = true := by
    intro c hc
    exact decide_eq_true fun heq => h (heq ▸ List.mem_reverse.mp hc)
  simp only [Position.behind, List.reverse_append]
  rw [List.takeWhile_append_of_pos hline, List.length_append, List.length_reverse]
  omega

/-- What stands behind a gap can be in another case. All that a gap asks of it is that a comment
    ends with its line, and a newline has no case. -/
theorem IsGap.recased {rest other gap : List Char} (h : IsGap rest gap)
    (hrest : SameLetters rest other) : IsGap other gap := by
  induction h with
  | nil => exact .nil
  | blank hc _ ih => exact .blank hc ih
  | comment hmark hbody hend =>
    refine .comment hmark hbody fun d hd => ?_
    cases hrest with
    | nil => exact absurd hd (by simp)
    | cons hc _ =>
      obtain rfl := Option.some.inj hd
      exact (hc.eq_iff '\n' rfl).mp (hend _ rfl)

/-! ### Spellings -/

namespace Token.SpelledAs

variable {token : Token} {spelling rest : List Char}

/-- A string is read as its text, whatever stands behind it. -/
theorem readLexeme_string (h : token.SpelledAs spelling) (hkind : token.kind = .string)
    (rest : List Char) :
    readLexeme (spelling ++ rest) = ⟨.ok (token.kind, token.text), spelling, rest⟩ := by
  rw [SpelledAs, hkind] at h
  obtain ⟨body, rfl, hline, hbody⟩ := h
  simp [readLexeme, hbody.readBody_eq hline rest, Lexeme.extend, Except.map, hkind]

/-- But for strings, a token is spelled as its text. -/
theorem eq_toList (h : token.SpelledAs spelling) (hkind : token.kind ≠ .string) :
    spelling = token.text.toList := by
  rw [SpelledAs] at h
  split at h
  · exact absurd ‹_› hkind
  · exact h.elim
  all_goals exact h

/-- The end of the input has no spelling, and so no spelled token is the end of the input. -/
theorem kind_ne (h : token.SpelledAs spelling) : token.kind ≠ .endOfInput := by
  intro hkind
  rw [SpelledAs, hkind] at h
  exact h

/-- What is read of a token where it stands is its spelling, and nothing of what stands behind it,
    so that reading goes on there. -/
theorem readLexeme_eq (h : token.SpelledAs spelling)
    (read : (readLexeme (spelling ++ rest)).reading = .ok (token.kind, token.text)) :
    readLexeme (spelling ++ rest) = ⟨.ok (token.kind, token.text), spelling, rest⟩ := by
  by_cases hkind : token.kind = .string
  · exact h.readLexeme_string hkind rest
  · have hspelling : (readLexeme (spelling ++ rest)).spelling = spelling :=
      ((spelledAs_readLexeme read h.kind_ne).eq_toList hkind).trans (h.eq_toList hkind).symm
    have hwhole := readLexeme_append (spelling ++ rest)
    rw [hspelling, List.append_cancel_left_eq] at hwhole
    calc readLexeme (spelling ++ rest)
        = ⟨(readLexeme (spelling ++ rest)).reading, (readLexeme (spelling ++ rest)).spelling,
            (readLexeme (spelling ++ rest)).rest⟩ := rfl
      _ = ⟨.ok (token.kind, token.text), spelling, rest⟩ := by rw [read, hspelling, hwhole]

end Token.SpelledAs

/-! ### Pieces -/

/-- The pieces differ in the case of letters alone. -/
structure Piece.Recased (piece other : Piece) : Prop where
  gap : other.gap = piece.gap
  kind : other.token.kind = piece.token.kind
  position : other.token.position = piece.token.position
  letters : SameLetters piece.spelling other.spelling
  spelling : other.token.SpelledAs other.spelling

namespace Piece

variable {piece other : Piece} {front rest rest' : List Char}

/-- A piece whose token is spelled otherwise. -/
def respell (piece : Piece) (spelling : List Char) : Piece :=
  { piece with spelling, token := { piece.token with text := String.ofList spelling } }

/-- A piece can be left as it is, which is how the tokens that are no keywords are kept. -/
theorem Recased.refl (hspelling : piece.token.SpelledAs piece.spelling) : piece.Recased piece :=
  ⟨rfl, rfl, rfl, .refl _, hspelling⟩

/-- The case of the letters of a token that is no string can be changed at will. -/
theorem Recased.respell {spelling : List Char} (hspelling : piece.token.SpelledAs piece.spelling)
    (hkind : piece.token.kind ≠ .string) (hletters : SameLetters piece.spelling spelling) :
    piece.Recased (piece.respell spelling) where
  gap := rfl
  kind := rfl
  position := rfl
  letters := hletters
  spelling := by
    have hend := hspelling.kind_ne
    cases hother : piece.token.kind <;> simp_all [Token.SpelledAs, Piece.respell]

/-- The whole of a piece, with its gap, has the same letters in both cases. -/
theorem Recased.text (h : piece.Recased other) : SameLetters piece.text other.text := by
  rw [Piece.text, Piece.text, h.gap]
  exact List.rel_append (SameLetters.refl _) h.letters

/-- A piece in another case is read in the same way as the piece. The text behind it may be in
    another case too, since it does not matter to where the token ends. -/
theorem Recased.readLexeme_eq (h : piece.Recased other) (hrest : SameLetters rest rest')
    (read : readLexeme (piece.spelling ++ rest) =
      ⟨.ok (piece.token.kind, piece.token.text), piece.spelling, rest⟩) :
    readLexeme (other.spelling ++ rest') =
      ⟨.ok (other.token.kind, other.token.text), other.spelling, rest'⟩ := by
  -- A string ends at its quote. Any other token ends where its spelling has the length of the old
  -- one.
  by_cases hkind : other.token.kind = .string
  · exact h.spelling.readLexeme_string hkind rest'
  · have hrecased := readLexeme_recased (List.rel_append h.letters hrest)
      (congrArg Lexeme.reading read) (h.kind ▸ hkind)
    have hlength := hrecased.spelling.length_eq
    rw [read, h.letters.length_eq] at hlength
    have hspelling :=
      List.append_inj_left (readLexeme_append (other.spelling ++ rest')) hlength.symm
    refine h.spelling.readLexeme_eq ?_
    rw [hrecased.reading, hspelling, h.spelling.eq_toList hkind, String.ofList_toList, h.kind]

end Piece

/-! ### Texts -/

namespace Cursor

variable {cursor stop : Cursor} {token last : Token} {piece : Piece} {front rest : List Char}

/-- What is read behind a gap. No token begins with a character that would go on with the gap, so
    that the gap ends where it is said to end. -/
theorem next_of_gap {gap spelling : List Char} {kind : TokenKind} {word : String}
    (hgap : IsGap (spelling ++ rest) gap)
    (read : readLexeme (spelling ++ rest) = ⟨.ok (kind, word), spelling, rest⟩)
    (position : Position) :
    (⟨gap ++ (spelling ++ rest), position⟩ : Cursor).next =
      (.ok ⟨kind, word, position.after gap⟩, ⟨rest, position.after (gap ++ spelling)⟩) := by
  have hbegins : ∀ c ∈ (spelling ++ rest).head?, GapState.blank.step? c = none := by
    intro c hc
    obtain ⟨tail, htail⟩ := List.head?_eq_some_iff.mp hc
    rw [htail] at read
    exact step?_of_readLexeme (congrArg Lexeme.reading read)
  have hstart : (⟨gap ++ (spelling ++ rest), position⟩ : Cursor).skipGap =
      ⟨spelling ++ rest, position.after gap⟩ := by
    rw [skipGap, hgap.splitGap_eq hbegins]
  rw [next_of_lexeme (by rw [hstart, read]) rfl, hstart, Position.after_append]

/-- A token is read where a piece with this token fits, with its gap and its spelling. The column of
    the token tells how long the gap is, and the rest follows. -/
theorem readLexeme_of_fits (read : cursor.next = (.ok token, stop))
    (hposition : cursor.position = .behind front) (hfits : piece.Fits front rest)
    (htoken : piece.token = token) (hrest : cursor.rest = piece.text ++ rest) :
    readLexeme (piece.spelling ++ rest) = ⟨.ok (token.kind, token.text), piece.spelling, rest⟩ ∧
      stop = ⟨rest, .behind (front ++ piece.text)⟩ := by
  subst htoken
  obtain ⟨_, rfl, reading, hplace, rfl⟩ := lexeme_of_next read
  obtain ⟨gap, hsplit, hgap, hstart⟩ := exists_gap hposition
  -- The two gaps begin and end at the same place.
  have hlength : piece.gap.length = gap.length := by
    have hcolumn : (Position.behind (front ++ piece.gap)).column =
        (Position.behind (front ++ gap)).column := by
      rw [← hfits.position, hplace, hstart]
    rw [column_behind_append hfits.gap.newline_not_mem,
      column_behind_append hgap.newline_not_mem] at hcolumn
    omega
  rw [hrest, Piece.text, List.append_assoc] at hsplit
  obtain ⟨rfl, hbehind⟩ := List.append_inj hsplit hlength
  rw [← hbehind] at reading ⊢
  have hlexeme := hfits.spelling.readLexeme_eq reading
  refine ⟨hlexeme, ?_⟩
  rw [hlexeme, hstart, Position.after_behind, Piece.text, List.append_assoc]

end Cursor

/-- The first piece of a layout, and the layout of what stands behind it. -/
theorem Layout.exists_tail {read text gap : List Char} {piece : Piece} {pieces : List Piece}
    (h : Layout read text (piece :: pieces) gap) :
    ∃ rest, text = piece.text ++ rest ∧ piece.Fits read rest ∧
      Layout (read ++ piece.text) rest pieces gap := by
  refine ⟨pieces.flatMap Piece.text ++ gap, ?text, ?fits, rfl, ?rest, h.gap⟩
  case text => rw [h.text_eq, List.flatMap_cons, List.append_assoc]
  case fits => simpa using h.fits [] piece pieces rfl
  case rest =>
    rintro front other back rfl
    have hother := h.fits (piece :: front) other back rfl
    rwa [List.flatMap_cons, ← List.append_assoc] at hother

/-- Every token of a layout is spelled in front of it in the way that its kind asks for. -/
theorem Layout.spelledAs_of_mem {read text gap : List Char} {piece : Piece} {pieces : List Piece}
    (h : Layout read text pieces gap) (hmem : piece ∈ pieces) :
    piece.token.SpelledAs piece.spelling := by
  obtain ⟨front, back, hsplit⟩ := List.append_of_mem hmem
  exact (h.fits front piece back hsplit).spelling

/-- A text that is put together from recased pieces has the same letters as before, and the gap
    behind the last piece is kept. -/
theorem flatMap_recased {pieces others : List Piece}
    (h : List.Forall₂ Piece.Recased pieces others) (gap : List Char) :
    SameLetters (pieces.flatMap Piece.text ++ gap) (others.flatMap Piece.text ++ gap) := by
  induction h with
  | nil => exact .refl gap
  | cons hpiece _ ih =>
    rw [List.flatMap_cons, List.flatMap_cons, List.append_assoc, List.append_assoc]
    exact List.rel_append hpiece.text ih

/-- From another case of a text, tokens are read in that case, and the end of the input is in the
    same place. -/
theorem Cursor.Lexes.recased {cursor : Cursor} {tokens : List Token} {last : Token}
    (h : cursor.Lexes tokens last) {front gap : List Char} {pieces others : List Piece}
    (hposition : cursor.position = .behind front) (hlayout : Layout front cursor.rest pieces gap)
    (htokens : pieces.map (·.token) = tokens)
    (hrecased : List.Forall₂ Piece.Recased pieces others) :
    (⟨others.flatMap Piece.text ++ gap, cursor.position⟩ : Cursor).Lexes (others.map (·.token))
      last := by
  -- The two cursors move over one piece after the other, and stay at the same position.
  induction h generalizing front pieces others with
  | @finish cursor stop last read ended =>
    obtain rfl := List.map_eq_nil_iff.mp htokens
    obtain rfl := List.forall₂_nil_left_iff.mp hrecased
    have hrest : cursor.rest = gap := hlayout.text_eq
    rw [List.flatMap_nil, List.nil_append, List.map_nil, ← hrest]
    exact .finish read ended
  | @step cursor stop token last tokens read more _ ih =>
    obtain ⟨piece, pieces, rfl, htoken, htail⟩ := List.map_eq_cons_iff.mp htokens
    obtain ⟨other, others, hpiece, hothers, rfl⟩ := List.forall₂_cons_left_iff.mp hrecased
    obtain ⟨rest, hrest, hfits, hlayout⟩ := hlayout.exists_tail
    obtain ⟨hlexeme, rfl⟩ := readLexeme_of_fits read hposition hfits htoken hrest
    have hletters : SameLetters rest (others.flatMap Piece.text ++ gap) := by
      rw [hlayout.text_eq]
      exact flatMap_recased hothers gap
    have hgap := hfits.gap.recased (List.rel_append hpiece.letters hletters)
    subst htoken
    have hnext := next_of_gap hgap (hpiece.readLexeme_eq hletters hlexeme) cursor.position
    have hplace : cursor.position.after piece.gap = other.token.position := by
      rw [hpiece.position, hfits.position, hposition, Position.after_behind]
    have hstop : cursor.position.after (piece.gap ++ other.spelling) =
        .behind (front ++ piece.text) := by
      rw [← hpiece.gap, ← Piece.text, ← hpiece.text.after_eq, hposition, Position.after_behind]
    have hwhole : (other :: others).flatMap Piece.text ++ gap =
        piece.gap ++ (other.spelling ++ (others.flatMap Piece.text ++ gap)) := by
      rw [List.flatMap_cons, Piece.text, hpiece.gap, List.append_assoc, List.append_assoc]
    rw [hplace, hstop] at hnext
    rw [hwhole, List.map_cons]
    exact .step hnext (hpiece.kind ▸ more) (ih rfl hlayout htail hothers)

/-! ### Tokens -/

/-- The tokens differ in the case of letters alone. -/
structure Token.Recased (token other : Token) : Prop where
  kind : other.kind = token.kind
  position : other.position = token.position
  letters : SameLetters token.text.toList other.text.toList

/-- There are no two escapes that differ in the case of letters. -/
theorem sameLetter_of_escapes {c d meant meant' : Char}
    (hc : (c, meant) ∈ [('n', '\n'), ('t', '\t'), ('"', '"'), ('\\', '\\')])
    (hd : (d, meant') ∈ [('n', '\n'), ('t', '\t'), ('"', '"'), ('\\', '\\')])
    (h : SameLetter c d) : SameLetter meant meant' := by
  have hall : ∀ first ∈ [('n', '\n'), ('t', '\t'), ('"', '"'), ('\\', '\\')],
      ∀ second ∈ [('n', '\n'), ('t', '\t'), ('"', '"'), ('\\', '\\')],
        first.1.toLower = second.1.toLower → first.2.toLower = second.2.toLower := by
    decide
  exact hall _ hc _ hd h

/-- Two bodies with the same letters mean texts with the same letters, since none of the escapes has
    a letter that is an escape in another case. -/
theorem Unescapes.recased {body body' word word' : List Char} (h : Unescapes body word)
    (h' : Unescapes body' word') (hletters : SameLetters body body') : SameLetters word word' := by
  -- A backslash has no case, so that the second body has an escape exactly where the first one
  -- does.
  induction h generalizing body' word' with
  | nil =>
    cases hletters
    cases h'
    exact .nil
  | plain hc _ ih =>
    cases hletters with
    | cons hfirst hrest =>
      cases h' with
      | plain _ h' => exact .cons hfirst (ih h' hrest)
      | escaped => exact absurd ((hfirst.eq_iff '\\' rfl).mpr rfl) hc.2
  | escaped hc _ ih =>
    cases hletters with
    | cons hbackslash hletters =>
      cases hletters with
      | cons hfirst hrest =>
        cases h' with
        | plain hd => exact absurd ((hbackslash.eq_iff '\\' rfl).mp rfl) hd.2
        | escaped hd h' =>
          exact .cons (sameLetter_of_escapes hc hd hfirst) (ih h' hrest)

/-- The letters between the quotes agree if those with the quotes do. The two bodies have the same
    length. -/
theorem SameLetters.of_quoted {body other : List Char}
    (h : SameLetters ('"' :: body ++ ['"']) ('"' :: other ++ ['"'])) : SameLetters body other := by
  cases h with
  | cons _ h =>
    have hlength : body.length = other.length := by simpa using h.length_eq
    have htake :
        SameLetters ((body ++ ['"']).take body.length) ((other ++ ['"']).take body.length) :=
      List.forall₂_take body.length h
    rwa [List.take_left, List.take_left' hlength.symm] at htake

/-- The tokens of a piece in two cases have the same letters. For a string this is about its text,
    which is not what is spelled. -/
theorem Piece.Recased.token {piece other : Piece} (h : piece.Recased other)
    (hspelling : piece.token.SpelledAs piece.spelling) : piece.token.Recased other.token where
  kind := h.kind
  position := h.position
  letters := by
    by_cases hkind : piece.token.kind = .string
    · have hother := h.spelling
      rw [Token.SpelledAs, hkind] at hspelling
      rw [Token.SpelledAs, h.kind, hkind] at hother
      obtain ⟨body, hbody, -, hword⟩ := hspelling
      obtain ⟨body', hbody', -, hword'⟩ := hother
      have hletters := h.letters
      rw [hbody, hbody'] at hletters
      exact hword.recased hword' (SameLetters.of_quoted hletters)
    · rw [← hspelling.eq_toList hkind, ← h.spelling.eq_toList (h.kind ▸ hkind)]
      exact h.letters

/-- Lines end at the same tokens, as the kind of a token does not change with its case. -/
theorem splitLines_recased {tokens others : List Token}
    (h : List.Forall₂ Token.Recased tokens others) :
    List.Forall₂ (List.Forall₂ Token.Recased) (splitLines tokens) (splitLines others) := by
  induction h with
  | nil => exact .cons .nil .nil
  | @cons token other tokens others htoken _ ih =>
    by_cases ended : token.kind = .newline
    · simp only [splitLines, ended, htoken.kind, if_true]
      exact .cons .nil ih
    · simp only [splitLines, ended, htoken.kind, if_false]
      generalize splitLines tokens = lines, splitLines others = lines' at ih
      cases ih with
      | nil => exact .cons (.cons htoken .nil) .nil
      | cons hline hlines => exact .cons (.cons htoken hline) hlines

/-! ### Texts in another case -/

/-- A text of which the tokens have their letters in another case. What stands between the tokens is
    left as it is. Each text that can be read up to its end has such a layout (`layout_of_lexes`),
    and each token that is no string can have its letters in any case (`Piece.Recased.respell`). -/
structure Recasing (text : String) where
  /-- The tokens of the text, with their spellings. -/
  pieces : List Piece
  /-- The same tokens in the other case. -/
  others : List Piece
  /-- What stands behind the last token. -/
  gap : List Char
  layout : Layout [] text.toList pieces gap
  recased : List.Forall₂ Piece.Recased pieces others

namespace Recasing

variable {text : String} (recasing : Recasing text)

/-- The tokens of the text. -/
def tokens : List Token := recasing.pieces.map (·.token)

/-- The text in the other case. -/
def result : String := String.ofList (recasing.others.flatMap Piece.text ++ recasing.gap)

/-- The tokens in the other case. -/
def resultTokens : List Token := recasing.others.map (·.token)

variable {recasing} {last : Token}

/-- If a text is read up to its end, then so is the text in the other case. -/
theorem lexes (h : (Cursor.ofText text).Lexes recasing.tokens last) :
    (Cursor.ofText recasing.result).Lexes recasing.resultTokens last := by
  have hlexes := h.recased rfl recasing.layout rfl recasing.recased
  rwa [Cursor.ofText, result, String.toList_ofList]

/-- The tokens differ in the case of letters alone, piece by piece, and their positions are the
    same. -/
theorem tokens_recased : List.Forall₂ Token.Recased recasing.tokens recasing.resultTokens := by
  have hspelling : ∀ piece ∈ recasing.pieces, piece.token.SpelledAs piece.spelling :=
    fun piece => recasing.layout.spelledAs_of_mem
  have hrecased := recasing.recased
  rw [tokens, resultTokens]
  generalize recasing.pieces = pieces, recasing.others = others at hspelling hrecased ⊢
  induction hrecased with
  | nil => exact .nil
  | cons hpiece _ ih =>
    obtain ⟨hfirst, hrest⟩ := List.forall_mem_cons.mp hspelling
    exact .cons (hpiece.token hfirst) (ih hrest)

end Recasing

end Schematic.Netlist
