import Mathlib.Data.List.Induction
import Mathlib.Data.Nat.Digits.Defs
import Schematic.Netlist.Entry

namespace Schematic

open Text

/-!
# Numerals

A numeral can have any number of digits. It is read as the integer that it stands for if there is
room for this integer, and refused otherwise.

* `Text.IsInt64` — the integers that there is room for in a 64-bit word;
* `Text.Numeral`, `Numeral.value` — ASCII digits behind at most one sign, and their integer;
* `Numeral.readInt?_chars` — every numeral is read as its value;
* `Numeral.readInt64?_eq_some`, `Numeral.readWidth?_eq_some` — which 64-bit words and which widths
  numerals are read as;
* `Numeral.ofInt` — the decimal form of an integer, which is read back as that integer
  (`Text.readInt64?_toString`, `Netlist.readWidth?_toString`).

Reading an integer takes the digits from the left and multiplies what it has by ten at every step,
while the value of a numeral is the sum that the decimal system gives to all its digits at once. The
two agree by a lemma on lists of digits that has no bound in it (`ofDigitChars_eq_ofDigits`), and
the sign is put in front afterwards. Only then comes the range: a word is made of an integer if the
integer is in range, and the integer is got back from the word. For this reason a numeral of a
thousand digits is as easy as one of two, and leading zeros are no matter of their own.

A width is read like any word and then compared with zero and with the greatest width, and its sign
is part of the numeral.
-/

namespace Text

/-! ### Digits -/

/-- The ASCII digits by their code points. -/
theorem isDigit_iff {c : Char} : c.isDigit = true ↔ 48 ≤ c.toNat ∧ c.toNat ≤ 57 :=
  Char.isDigit_iff_toNat

/-- No numeral has white space in it. -/
theorem isWhiteSpace_of_isDigit {c : Char} (h : c.isDigit = true) : isWhiteSpace c = false := by
  rw [isDigit_iff] at h
  simp [isWhiteSpace, CodePoints.contains, whiteSpaceRanges]
  omega

/-- The number that a digit stands for. -/
def digitValue (c : Char) : Nat := c.toNat - '0'.toNat

/-- Digits that are read from the left have their values in the decimal system, in which the last
    digit counts once. -/
theorem ofDigitChars_eq_ofDigits (digits : List Char) :
    Nat.ofDigitChars 10 digits 0 = Nat.ofDigits 10 (digits.reverse.map digitValue) := by
  induction digits using List.reverseRecOn with
  | nil => rfl
  | append_singleton digits c ih =>
    have hleft : Nat.ofDigitChars 10 (digits ++ [c]) 0 =
        10 * Nat.ofDigitChars 10 digits 0 + digitValue c := by
      simp [Nat.ofDigitChars, digitValue]
    rw [hleft, ih, List.reverse_append, List.reverse_singleton, List.singleton_append,
      List.map_cons, Nat.ofDigits_cons, Nat.add_comm]

/-! ### 64-bit words -/

/-- The integer is in the range of 64-bit words. -/
def IsInt64 (i : Int) : Prop := -9223372036854775808 ≤ i ∧ i ≤ 9223372036854775807

instance (i : Int) : Decidable (IsInt64 i) := inferInstanceAs (Decidable (_ ∧ _))

/-- A word stands for an integer that there is room for. -/
theorem isInt64_toInt (word : Int64) : IsInt64 word.toInt := by
  have hmin := word.le_toInt
  have hmax := word.toInt_lt
  exact ⟨by omega, by omega⟩

/-- An integer that there is room for is got back from the word that is made of it. Any other one
    would come back modulo the range. -/
theorem toInt_ofInt {i : Int} (h : IsInt64 i) : (Int64.ofInt i).toInt = i :=
  Int64.toInt_ofInt_of_le h.1 (Int.lt_add_one_of_le h.2)

/-! ### Numerals -/

/-- What stands in front of the digits of a numeral. -/
inductive Sign where
  | none
  | plus
  | minus
deriving DecidableEq, Repr

/-- The characters of a sign. -/
def Sign.chars : Sign → List Char
  | none => []
  | plus => ['+']
  | minus => ['-']

/-- A number with a sign in front of it. -/
def Sign.apply : Sign → Nat → Int
  | none, n | plus, n => n
  | minus, n => -n

/-- One or more ASCII digits behind at most one sign. -/
structure Numeral where
  sign : Sign
  digits : List Char
  nonempty : digits ≠ []
  areDigits : ∀ c ∈ digits, c.isDigit = true

namespace Numeral

/-- The characters of a numeral. -/
def chars (numeral : Numeral) : List Char := numeral.sign.chars ++ numeral.digits

/-- The text of a numeral. -/
def text (numeral : Numeral) : String := String.ofList numeral.chars

/-- The integer that a numeral stands for in the decimal system. -/
def value (numeral : Numeral) : Int :=
  numeral.sign.apply (Nat.ofDigits 10 (numeral.digits.reverse.map digitValue))

/-- The text of a numeral is made of its characters and of nothing else. -/
theorem toList_text (numeral : Numeral) : numeral.text.toList = numeral.chars :=
  String.toList_ofList

/-- The first digit is not taken for a sign. It matters for a numeral that has none, where this
    digit is what the reader looks at first. -/
theorem exists_cons (numeral : Numeral) :
    ∃ c cs, numeral.digits = c :: cs ∧ c ≠ '-' ∧ c ≠ '+' := by
  obtain ⟨c, cs, hdigits⟩ := List.exists_cons_of_ne_nil numeral.nonempty
  have hfirst : c.isDigit = true := numeral.areDigits c (by rw [hdigits]; exact List.mem_cons_self)
  refine ⟨c, cs, hdigits, ?_, ?_⟩
  · rintro rfl
    exact absurd hfirst (by decide)
  · rintro rfl
    exact absurd hfirst (by decide)

/-- The digits behind the sign are read as the number that they stand for, however many they are. -/
theorem readNat?_digits (numeral : Numeral) :
    readNat? numeral.digits = some (Nat.ofDigits 10 (numeral.digits.reverse.map digitValue)) := by
  have hall : numeral.digits.all Char.isDigit = true := List.all_eq_true.mpr numeral.areDigits
  rw [readNat?, if_pos ⟨numeral.nonempty, hall⟩, ofDigitChars_eq_ofDigits]

/-- Every numeral is read as its value, whatever its length. There is no bound here, which comes in
    only when a word is made of the integer. -/
theorem readInt?_chars (numeral : Numeral) : readInt? numeral.chars = some numeral.value := by
  rw [chars, value]
  -- A plus and a minus are read as signs. Where there is none, the first digit must not be taken
  -- for one.
  cases numeral.sign with
  | none =>
    obtain ⟨c, cs, hdigits, hminus, hplus⟩ := numeral.exists_cons
    have hread := numeral.readNat?_digits
    rw [hdigits] at hread ⊢
    rw [Sign.chars, List.nil_append, readInt?, if_neg hminus, if_neg hplus, hread]
    rfl
  | plus =>
    rw [Sign.chars, List.singleton_append, readInt?, if_neg (by decide), if_pos rfl,
      readNat?_digits]
    rfl
  | minus =>
    rw [Sign.chars, List.singleton_append, readInt?, if_pos rfl, readNat?_digits]
    rfl

/-- There is no white space to trim, neither before the sign nor behind the digits. So a numeral is
    read as it is spelled. -/
theorem trim_chars (numeral : Numeral) : trim numeral.chars = numeral.chars := by
  have hplain : ∀ c ∈ numeral.chars, isWhiteSpace c = false := by
    intro c hc
    rcases List.mem_append.mp hc with hsign | hdigit
    · cases hkind : numeral.sign <;> rw [hkind] at hsign
      · exact absurd hsign List.not_mem_nil
      all_goals
        obtain rfl := List.mem_singleton.mp hsign
        decide
    · exact isWhiteSpace_of_isDigit (numeral.areDigits c hdigit)
  exact trim_eq_self (fun c hc => hplain c (List.mem_of_mem_head? hc))
    (fun c hc => hplain c (List.mem_of_mem_getLast? hc))

/-! ### Reading numerals as words -/

/-- A numeral is read as the word of its value if there is room for the value, and as nothing
    otherwise. -/
theorem readInt64?_text (numeral : Numeral) :
    readInt64? numeral.text =
      if IsInt64 numeral.value then some (Int64.ofInt numeral.value) else none := by
  have hmin : Int64.minValue.toInt = -9223372036854775808 := by decide
  have hmax : Int64.maxValue.toInt = 9223372036854775807 := by decide
  rw [readInt64?, toList_text, trim_chars, readInt?_chars, Option.bind_some, hmin, hmax]
  rfl

/-- A numeral is read as the word of its value and as no other. That there is such a word says that
    the value is in range. -/
theorem readInt64?_eq_some {numeral : Numeral} {word : Int64} :
    readInt64? numeral.text = some word ↔ word.toInt = numeral.value := by
  rw [readInt64?_text]
  constructor
  · intro h
    split at h
    case isTrue hrange =>
      obtain rfl := Option.some.inj h
      exact toInt_ofInt hrange
    case isFalse => exact absurd h (by simp)
  · intro h
    rw [← h, if_pos (isInt64_toInt word), Int64.ofInt_toInt]

/-- A numeral is refused exactly if there is no room for its value. -/
theorem readInt64?_eq_none {numeral : Numeral} :
    readInt64? numeral.text = none ↔ ¬ IsInt64 numeral.value := by
  rw [readInt64?_text]
  split
  case isTrue hrange => simp [hrange]
  case isFalse hrange => exact ⟨fun _ => hrange, fun _ => rfl⟩

/-! ### Widths -/

/-- A numeral is read as the width of its value, unless this is zero or negative. A value that is
    too great for a width has no width to be equal to. -/
theorem readWidth?_eq_some {numeral : Numeral} {width : UInt32} :
    Netlist.readWidth? numeral.text = some width ↔
      1 ≤ numeral.value ∧ (width.toNat : Int) = numeral.value := by
  have hwidth : width.toNat < UInt32.size := width.toNat_lt_size
  simp only [UInt32.size] at hwidth
  rw [Netlist.readWidth?]
  constructor
  · intro h
    obtain ⟨word, hread, h⟩ := Option.bind_eq_some_iff.mp h
    rw [readInt64?_eq_some] at hread
    split at h
    case isTrue hrange =>
      obtain rfl := Option.some.inj h
      rw [UInt32.toNat_ofNat_of_lt' hrange.2, ← hread]
      omega
    case isFalse => exact absurd h (by simp)
  · rintro ⟨hpositive, hvalue⟩
    -- A 32-bit word is far from the end of the range of 64-bit words.
    have hrange : IsInt64 numeral.value := ⟨by omega, by omega⟩
    have hword := toInt_ofInt hrange
    have hnat : (Int64.ofInt numeral.value).toInt.toNat = width.toNat := by omega
    rw [readInt64?_eq_some.mpr hword, Option.bind_some, hnat, if_pos, UInt32.ofNat_toNat]
    exact ⟨by omega, hwidth⟩

/-! ### Decimal forms -/

/-- The decimal form of an integer. -/
def ofInt (i : Int) : Numeral where
  sign := if 0 ≤ i then .none else .minus
  digits := Nat.toDigits 10 i.natAbs
  nonempty := Nat.toDigits_ne_nil
  areDigits _ h := Nat.isDigit_of_mem_toDigits (by decide) (by decide) h

/-- The decimal form of an integer stands for this integer. -/
@[simp] theorem value_ofInt (i : Int) : (ofInt i).value = i := by
  -- The digits are those of the absolute value, which the sign is put back on below.
  have hdigits :
      Nat.ofDigits 10 ((Nat.toDigits 10 i.natAbs).reverse.map digitValue) = i.natAbs := by
    rw [← ofDigitChars_eq_ofDigits, Nat.ofDigitChars_ten_toDigits]
  rw [value, ofInt, hdigits]
  split
  case isTrue h => exact Int.natAbs_of_nonneg h
  case isFalse h =>
    show -(i.natAbs : Int) = i
    omega

/-- The decimal form of an integer is the text that is written for it, without a plus or a leading
    zero. -/
@[simp] theorem text_ofInt (i : Int) : (ofInt i).text = toString i := by
  rw [text, chars, ofInt, Int.toString_eq_repr, Int.repr_eq_if]
  split
  · rw [show i.toNat = i.natAbs by omega, Nat.repr_eq_ofList_toDigits]
    rfl
  · rw [show (-i).toNat = i.natAbs by omega, Nat.repr_eq_ofList_toDigits, ← String.toList_inj]
    simp [Sign.chars]

end Numeral

/-- The decimal form of a 64-bit word is read back. -/
theorem readInt64?_toString (value : Int64) : readInt64? (toString value.toInt) = some value := by
  rw [← Numeral.text_ofInt, Numeral.readInt64?_eq_some, Numeral.value_ofInt]

end Text

/-- The decimal form of a width is read back, unless the width is zero. -/
theorem Netlist.readWidth?_toString {width : UInt32} (h : width ≠ 0) :
    readWidth? (toString width.toNat) = some width := by
  have hpositive : 0 < width.toNat := by
    rw [Nat.pos_iff_ne_zero, ne_eq, ← UInt32.toNat_zero, UInt32.toNat_inj]
    exact h
  have htext : toString width.toNat = (Numeral.ofInt width.toNat).text :=
    (Numeral.text_ofInt (width.toNat : Int)).symm
  rw [htext, Numeral.readWidth?_eq_some, Numeral.value_ofInt]
  omega

end Schematic
