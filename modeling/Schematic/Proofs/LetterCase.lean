import Mathlib.Data.List.Forall2
import Schematic.Proofs.Words

namespace Schematic

open Netlist Text

/-!
# The case of ASCII letters

What does not depend on the case of ASCII letters. Words are compared in two ways without regard to
case, the first word of a line by full lower case and the words among its arguments by ASCII lower
case. Both ways agree on two texts that differ in the case of ASCII letters alone.

* `SameLetter`, `SameLetters` — characters and texts that differ in the case of ASCII letters alone;
* `SameLetter.congr` — what is the same for all letters does not depend on their case;
* `SameLetters.toLower_eq`, `SameLetters.lowercase_eq` — the two ways of comparing words;
* `isAlpha_of_readInt64?` — what is read as an integer has no letters in it;
* `readLexeme_recased` — a token that is no string, with its letters in another case.

There are two functions for comparing words, and the relation `SameLetters` lies below both: two
texts with the same letters are equal in either lower case. Most of what the lexer asks of a
character has one answer for all letters, so that it does not depend on their case
(`SameLetter.congr`); this is why a recased token is cut off at the same place. Full lower case
needs more: it looks at the characters around a letter, and it is checked that ASCII letters answer
alike when they are looked at from elsewhere.
-/

namespace Text

/-! ### Letters -/

/-- The two characters are the same, or they are the same ASCII letter in different case. -/
def SameLetter (c d : Char) : Prop := c.toLower = d.toLower

instance (c d : Char) : Decidable (SameLetter c d) := inferInstanceAs (Decidable (_ = _))

/-- The ASCII letters by their code points. -/
theorem isAlpha_iff {c : Char} :
    c.isAlpha = true ↔ 65 ≤ c.toNat ∧ c.toNat ≤ 90 ∨ 97 ≤ c.toNat ∧ c.toNat ≤ 122 := by
  show (decide ('A'.val ≤ c.val ∧ c.val ≤ 'Z'.val) ||
    (decide ('a'.val ≤ c.val) && decide (c.val ≤ 'z'.val))) = true ↔ _
  simp only [UInt32.le_iff_toNat_le, Bool.or_eq_true, Bool.and_eq_true, decide_eq_true_eq]
  rfl

/-- ASCII lower case moves the capital letters by 32 code points and nothing else. The sum stays far
    below the bound of a word, so that it can be taken as one of numbers. -/
theorem toNat_toLower (c : Char) :
    c.toLower.toNat = if 65 ≤ c.toNat ∧ c.toNat ≤ 90 then c.toNat + 32 else c.toNat := by
  have hlower : c.toLower = if h : c.val ≥ 'A'.val ∧ c.val ≤ 'Z'.val then _ else c := rfl
  have hrange : (c.val ≥ 'A'.val ∧ c.val ≤ 'Z'.val) ↔ 65 ≤ c.toNat ∧ c.toNat ≤ 90 := by
    simp only [ge_iff_le, UInt32.le_iff_toNat_le]
    rfl
  by_cases hupper : 65 ≤ c.toNat ∧ c.toNat ≤ 90
  · have hlast : c.val.toNat ≤ 90 := hupper.2
    have hsum : c.val.toNat + 32 < 2 ^ 32 := by omega
    rw [if_pos hupper, hlower, dif_pos (hrange.mpr hupper)]
    show (c.val + 32).toNat = c.val.toNat + 32
    rw [UInt32.toNat_add]
    exact Nat.mod_eq_of_lt hsum
  · rw [if_neg hupper, hlower, dif_neg fun h => hupper (hrange.mp h)]

namespace SameLetter

variable {c d : Char}

/-- Two characters with the same letter are the same or are both letters. -/
theorem eq_or_letters (h : SameLetter c d) : c = d ∨ c.isAlpha = true ∧ d.isAlpha = true := by
  have hcodes := congrArg Char.toNat h
  rw [toNat_toLower, toNat_toLower] at hcodes
  rw [isAlpha_iff, isAlpha_iff, ← Char.toNat_inj]
  split at hcodes <;> split at hcodes <;> omega

/-- What is no letter has no other case. -/
theorem eq_of_not_letter (h : SameLetter c d) (hc : c.isAlpha = false) : c = d :=
  h.eq_or_letters.resolve_right fun letters => by simp [hc] at letters

/-- What is the same for all letters does not depend on their case. -/
theorem congr {α : Type} {f : Char → α} {value : α} (letters : ∀ c, c.isAlpha = true → f c = value)
    (h : SameLetter c d) : f c = f d := by
  rcases h.eq_or_letters with rfl | ⟨hc, hd⟩
  · rfl
  · rw [letters c hc, letters d hd]

/-- Both or none of the characters are the given one, which is no letter. -/
theorem eq_iff (h : SameLetter c d) (e : Char) (he : e.isAlpha = false) : c = e ↔ d = e := by
  have hother : ∀ a : Char, a.isAlpha = true → (decide (a = e)) = false := by
    intro a ha
    exact decide_eq_false (by rintro rfl; simp [he] at ha)
  rw [← decide_eq_decide]
  exact h.congr hother

end SameLetter

section Letters

variable {c : Char}

/-- The letters at issue are ASCII characters. -/
theorem toNat_lt_of_isAlpha (h : c.isAlpha = true) : c.toNat < 128 := by
  rw [isAlpha_iff] at h
  omega

/-- A letter begins a name. -/
theorem isNameStart_of_isAlpha (h : c.isAlpha = true) : isNameStart c = true := by
  simp [isNameStart, isAlphabetic, toNat_lt_of_isAlpha h, h]

/-- A letter continues a name. -/
theorem isNameChar_of_isAlpha (h : c.isAlpha = true) : isNameChar c = true := by
  simp [isNameChar, isAlphanumeric, isAlphabetic, toNat_lt_of_isAlpha h, h]

/-- A letter has case, in the sense of the rules for full lower case. -/
theorem isCased_of_isAlpha (h : c.isAlpha = true) : isCased c = true := by
  simp [isCased, toNat_lt_of_isAlpha h, h]

/-- A letter is not passed over when its surroundings are looked at. -/
theorem isCaseIgnorable_of_isAlpha (h : c.isAlpha = true) : isCaseIgnorable c = false := by
  have hcode := isAlpha_iff.mp h
  simp [isCaseIgnorable, toNat_lt_of_isAlpha h]
  omega

/-- A letter is lowered as an ASCII character. -/
theorem lowerForm_of_isAlpha (h : c.isAlpha = true) : lowerForm c = [c.toLower] := by
  have hascii := toNat_lt_of_isAlpha h
  have hother : c ≠ '\u0130' := by rintro rfl; exact absurd hascii (by decide)
  rw [lowerForm, if_neg hother, lowerChar, if_pos hascii]

/-- The same letter has the same lower form in either case. -/
theorem SameLetter.lowerForm_eq {d : Char} (h : SameLetter c d) : lowerForm c = lowerForm d := by
  rcases h.eq_or_letters with rfl | ⟨hc, hd⟩
  · rfl
  · rw [lowerForm_of_isAlpha hc, lowerForm_of_isAlpha hd, h]

/-- A digit is no letter. -/
theorem isAlpha_of_isDigit (h : c.isDigit = true) : c.isAlpha = false := by
  rw [isDigit_iff] at h
  rw [Bool.eq_false_iff, ne_eq, isAlpha_iff]
  omega

/-- A letter is no digit. -/
theorem isDigit_of_isAlpha (h : c.isAlpha = true) : c.isDigit = false :=
  Bool.eq_false_iff.mpr fun digit => by simp [isAlpha_of_isDigit digit] at h

/-- White space has no letters in it. -/
theorem isAlpha_of_isWhiteSpace (h : isWhiteSpace c = true) : c.isAlpha = false := by
  rw [Bool.eq_false_iff, ne_eq, isAlpha_iff]
  simp [isWhiteSpace, CodePoints.contains, whiteSpaceRanges] at h
  omega

end Letters

/-! ### Texts -/

/-- The two texts differ in the case of ASCII letters alone. -/
abbrev SameLetters (text other : List Char) : Prop := List.Forall₂ SameLetter text other

namespace SameLetters

variable {text other : List Char}

/-- A text has the same letters as itself. -/
theorem refl (text : List Char) : SameLetters text text :=
  List.forall₂_same.mpr fun _ _ => rfl

/-- A text without letters has no other case. This goes for numerals, and for whatever stands in a
    gap. -/
theorem eq_of_not_letters (h : SameLetters text other)
    (plain : ∀ c ∈ text, c.isAlpha = false) : text = other := by
  induction h with
  | nil => rfl
  | cons hc _ ih =>
    rw [hc.eq_of_not_letter (plain _ List.mem_cons_self),
      ih fun c hmem => plain c (List.mem_cons_of_mem _ hmem)]

/-- A run of characters of some class ends at the same place, if all letters are in the class or
    none. -/
theorem takeWhile {p : Char → Bool} {value : Bool} (letters : ∀ c, c.isAlpha = true → p c = value)
    (h : SameLetters text other) :
    SameLetters (text.takeWhile p) (other.takeWhile p) ∧
      SameLetters (text.dropWhile p) (other.dropWhile p) := by
  induction h with
  | nil => exact ⟨.nil, .nil⟩
  | @cons c d text other hc htail ih =>
    have hclass := hc.congr letters
    by_cases hp : p c = true
    · rw [List.takeWhile_cons_of_pos hp, List.takeWhile_cons_of_pos (hclass ▸ hp),
        List.dropWhile_cons_of_pos hp, List.dropWhile_cons_of_pos (hclass ▸ hp)]
      exact ⟨.cons hc ih.1, ih.2⟩
    · rw [List.takeWhile_cons_of_neg hp, List.takeWhile_cons_of_neg (hclass ▸ hp),
        List.dropWhile_cons_of_neg hp, List.dropWhile_cons_of_neg (hclass ▸ hp)]
      exact ⟨.nil, .cons hc htail⟩

/-- The case of letters moves nothing to another place. Positions count characters and newlines, and
    a newline has no other case. -/
theorem after_eq (h : SameLetters text other) (position : Position) :
    position.after text = position.after other := by
  induction h generalizing position with
  | nil => rfl
  | cons hc _ ih =>
    have hnewline := hc.eq_iff '\n' rfl
    rw [Position.after_cons, Position.after_cons, ih, Position.advance, Position.advance]
    simp only [hnewline]

/-! ### Comparing words -/

/-- Words with the same letters are the same in ASCII lower case. -/
theorem toLower_eq {word other : String} (h : SameLetters word.toList other.toList) :
    word.toLower = other.toLower := by
  have hmap : word.toList.map Char.toLower = other.toList.map Char.toLower := by
    rwa [← List.forall₂_eq_eq_eq, List.forall₂_map_left_iff, List.forall₂_map_right_iff]
  show word.map Char.toLower = other.map Char.toLower
  rw [← String.toList_inj, String.toList_map, String.toList_map, hmap]

/-- Whether a text begins with something that has case does not depend on the case of its
    letters. -/
theorem startsCased_eq (h : SameLetters text other) : startsCased text = startsCased other := by
  have hrest := (h.takeWhile fun c => isCaseIgnorable_of_isAlpha).2
  rw [startsCased, startsCased]
  generalize text.dropWhile isCaseIgnorable = rest, other.dropWhile isCaseIgnorable = rest' at hrest
  cases hrest with
  | nil => rfl
  | cons hc _ => exact hc.congr fun c => isCased_of_isAlpha

/-- The case of letters makes no difference to where a word ends, either. -/
theorem lowerAfter_eq {before before' : List Char} (h : SameLetters text other)
    (hbefore : SameLetters before before') : lowerAfter before text = lowerAfter before' other := by
  induction h generalizing before before' with
  | nil => rfl
  | cons hc htail ih =>
    have hsigma := hc.eq_iff 'Σ' rfl
    rw [lowerAfter, lowerAfter, ih (.cons hc hbefore), hc.lowerForm_eq, hbefore.startsCased_eq,
      startsCased_eq htail]
    simp only [hsigma]

/-- Words with the same letters are the same in full lower case. -/
theorem lowercase_eq {word other : String} (h : SameLetters word.toList other.toList) :
    lowercase word = lowercase other := by
  rw [lowercase, lowercase, h.lowerAfter_eq .nil]

end SameLetters

/-! ### Integers -/

/-- What is trimmed off a text is white space. Nothing else can be lost, from either end. -/
theorem mem_trim {c : Char} {text : List Char} (h : c ∈ text) :
    c ∈ trim text ∨ isWhiteSpace c = true := by
  -- White space is dropped from one end, and then from the other.
  have hdrop : ∀ {text : List Char}, c ∈ text →
      c ∈ text.dropWhile isWhiteSpace ∨ isWhiteSpace c = true := by
    intro text h
    have hwhole : text.takeWhile isWhiteSpace ++ text.dropWhile isWhiteSpace = text :=
      List.takeWhile_append_dropWhile
    rw [← hwhole, List.mem_append] at h
    exact h.symm.imp_right List.mem_takeWhile_imp
  rw [trim, List.mem_reverse]
  rcases hdrop h with h | h
  · exact hdrop (List.mem_reverse.mpr h)
  · exact .inr h

/-- What is read as a natural number consists of digits. -/
theorem isDigit_of_readNat? {text : List Char} {n : Nat} (h : readNat? text = some n) :
    ∀ c ∈ text, c.isDigit = true := by
  rw [readNat?] at h
  split at h
  case isTrue hdigits => exact List.all_eq_true.mp hdigits.2
  case isFalse => exact absurd h (by simp)

/-- What is read as an integer is a sign and digits, or digits alone, and has no letter in it that
    could be in another case. -/
theorem isAlpha_of_readInt? {text : List Char} {value : Int} (h : readInt? text = some value) :
    ∀ c ∈ text, c.isAlpha = false := by
  -- Signed or not, the rest is read as a natural number.
  have hdigits : ∀ {digits : List Char} {f : Int → Int},
      ((readNat? digits).bind fun n => some (n : Int)).map f = some value →
        ∀ c ∈ digits, c.isAlpha = false := by
    intro digits f h c hc
    obtain ⟨_, h, -⟩ := Option.map_eq_some_iff.mp h
    obtain ⟨n, hread, -⟩ := Option.bind_eq_some_iff.mp h
    exact isAlpha_of_isDigit (isDigit_of_readNat? hread c hc)
  cases text with
  | nil => exact absurd h (by simp [readInt?])
  | cons sign digits =>
    rw [readInt?] at h
    split at h
    case isTrue hminus =>
      rw [List.forall_mem_cons]
      exact ⟨hminus ▸ rfl, hdigits h⟩
    case isFalse =>
      split at h
      case isTrue hplus =>
        rw [List.forall_mem_cons]
        exact ⟨hplus ▸ rfl, hdigits h⟩
      case isFalse => exact hdigits h

/-- What is read as an integer has no letters in it, not even in what is trimmed off before it is
    read. -/
theorem isAlpha_of_readInt64? {text : String} {value : Int64} (h : readInt64? text = some value) :
    ∀ c ∈ text.toList, c.isAlpha = false := by
  intro c hc
  obtain ⟨number, hread, -⟩ := Option.bind_eq_some_iff.mp h
  rcases mem_trim hc with hmem | hspace
  · exact isAlpha_of_readInt? hread c hmem
  · exact isAlpha_of_isWhiteSpace hspace

end Text

/-! ### Tokens -/

namespace Netlist

/-- The second lexeme is a token of the given kind that is spelled as its text. It has the same
    letters as the first one, and so has what stands behind it. -/
structure Lexeme.Recased (kind : TokenKind) (lexeme other : Lexeme (TokenKind × String)) :
    Prop where
  reading : other.reading = .ok (kind, String.ofList other.spelling)
  spelling : SameLetters lexeme.spelling other.spelling
  rest : SameLetters lexeme.rest other.rest

section Lexemes

variable {c d : Char} {text other : List Char} {kind : TokenKind} {word : String}

/-- A run of characters of some class is a run of the same length in another case. -/
theorem readRun_recased {p : Char → Bool} {value : Bool} (kind : TokenKind)
    (letters : ∀ c, c.isAlpha = true → p c = value) (h : SameLetters text other) :
    (readRun kind p text).Recased kind (readRun kind p other) where
  reading := rfl
  spelling := (h.takeWhile letters).1
  rest := (h.takeWhile letters).2

/-- A directive is one in another case, with the name behind its dot recased. -/
theorem readDirective_recased (h : SameLetters text other)
    (read : (readDirective text).reading = .ok (kind, word)) :
    (readDirective text).Recased kind (readDirective other) := by
  obtain ⟨hname, hrest⟩ := h.takeWhile fun c => isNameChar_of_isAlpha
  refine ⟨?_, .cons rfl hname, hrest⟩
  simp only [readDirective] at read ⊢
  split at read
  · exact absurd read (by simp)
  · next nonempty =>
    obtain ⟨rfl, -⟩ := Prod.mk.inj (Except.ok.inj read)
    rw [if_neg fun empty => nonempty (List.forall₂_nil_right_iff.mp (empty ▸ hname))]

/-- A signed number has no other case, and letters may follow it in any. -/
theorem readSigned_recased (sign : Char) (h : SameLetters text other)
    (read : (readSigned sign text).reading = .ok (kind, word)) :
    (readSigned sign text).Recased kind (readSigned sign other) := by
  obtain ⟨hdigits, hrest⟩ := h.takeWhile fun c => isDigit_of_isAlpha
  refine ⟨?_, .cons rfl hdigits, hrest⟩
  simp only [readSigned] at read ⊢
  split at read
  · exact absurd read (by simp)
  · next nonempty =>
    obtain ⟨rfl, -⟩ := Prod.mk.inj (Except.ok.inj read)
    rw [if_neg fun empty => nonempty (List.forall₂_nil_right_iff.mp (empty ▸ hdigits))]

/-- A token that is no string is read in the same way when its letters and those behind it are in
    another case. -/
theorem readLexeme_recased (h : SameLetters text other)
    (read : (readLexeme text).reading = .ok (kind, word)) (unquoted : kind ≠ .string) :
    (readLexeme text).Recased kind (readLexeme other) := by
  cases h with
  | nil =>
    obtain ⟨rfl, -⟩ := Prod.mk.inj (Except.ok.inj read)
    exact ⟨rfl, .nil, .nil⟩
  | @cons c d text other hc htail =>
    by_cases start : isNameStart c = true
    · have start' : isNameStart d = true := hc.congr (fun c => isNameStart_of_isAlpha) ▸ start
      rw [readLexeme_nameStart start] at read ⊢
      obtain ⟨rfl, -⟩ := Prod.mk.inj (Except.ok.inj read)
      rw [readLexeme_nameStart start']
      exact readRun_recased _ (fun c => isNameChar_of_isAlpha) (.cons hc htail)
    · -- Nothing else that begins a token is a letter.
      obtain rfl := hc.eq_of_not_letter
        (Bool.eq_false_iff.mpr fun letter => start (isNameStart_of_isAlpha letter))
      simp only [readLexeme] at read ⊢
      split_ifs at read ⊢ with newline dot quote sign digit
      · obtain ⟨rfl, -⟩ := Prod.mk.inj (Except.ok.inj read)
        exact ⟨by rw [newline], .cons rfl .nil, htail⟩
      · exact readDirective_recased htail read
      · obtain ⟨_, -, hword⟩ := reading_extend read
        exact absurd (Prod.mk.inj hword).1.symm unquoted
      · exact readSigned_recased c htail read
      · obtain ⟨rfl, -⟩ := Prod.mk.inj (Except.ok.inj read)
        exact readRun_recased _ (fun c => isDigit_of_isAlpha) (.cons rfl htail)

end Lexemes

end Netlist

end Schematic
