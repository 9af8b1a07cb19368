/-
**Words are ordered as their texts.**

A word is shown as twelve octal digits or as thirty-six binary ones, in either case with leading
zeros. Digits are ordered as characters, so texts of as many digits are ordered as the numbers that
they denote:

* `ofDigitChars_lt_iff`: of two numbers of as many digits the first digit that differs decides;
* `Spells`: a text of some digits of a base that denotes a number, with `Spells.lt_iff` and
  `Spells.eq_iff`, by which such texts are ordered and told apart as their numbers;
* `Word.spells_octal` and `Word.spells_bits`: the two texts of a word spell its number;
* `Word.ordered_as_texts`: words, octal texts and binary texts have one order, and an octal text is
  read back as its word.
-/

import Mathlib.Data.String.Basic
import ControlWords.Proofs.BitField.Reading

namespace ControlWords

/-! ### Digits of a base -/

section Digits

variable {base : Nat}

/-- One more digit decides between numbers that are the same so far. -/
theorem mul_add_lt_iff (before after : Nat) {digit other : Nat} (small : digit < base)
    (otherSmall : other < base) :
    base * before + digit < base * after + other ↔
      before < after ∨ before = after ∧ digit < other := by
  have room {first second : Nat} (less : first < second) : base * first + base ≤ base * second :=
    Nat.mul_le_mul_left base less
  rcases Nat.lt_trichotomy before after with less | rfl | greater
  · have above := room less
    omega
  · omega
  · have above := room greater
    omega

theorem mul_add_eq_iff (before after : Nat) {digit other : Nat} (small : digit < base)
    (otherSmall : other < base) :
    base * before + digit = base * after + other ↔ before = after ∧ digit = other := by
  have less := mul_add_lt_iff before after small otherSmall
  have greater := mul_add_lt_iff after before otherSmall small
  omega

/-- As many characters from zero on as the base says are its digits. -/
structure IsDigitOf (base : Nat) (character : Char) : Prop where
  starts : '0'.toNat ≤ character.toNat
  below : character.toNat - '0'.toNat < base

namespace IsDigitOf

theorem of_digitChar {value : Nat} (small : value < base) (few : base ≤ 10) :
    IsDigitOf base (Nat.digitChar value) := by
  have code := Nat.toNat_digitChar_of_lt_ten (Nat.lt_of_lt_of_le small few)
  have zero : '0'.toNat = 48 := rfl
  exact ⟨by omega, by omega⟩

variable {first second : Char} (digit : IsDigitOf base first) (other : IsDigitOf base second)

include digit other

theorem lt_iff : first.toNat - '0'.toNat < second.toNat - '0'.toNat ↔ first < second := by
  have order : first < second ↔ first.toNat < second.toNat := UInt32.lt_iff_toNat_lt
  have starts := digit.starts
  have otherStarts := other.starts
  rw [order]
  omega

theorem eq_iff : first.toNat - '0'.toNat = second.toNat - '0'.toNat ↔ first = second := by
  have starts := digit.starts
  have otherStarts := other.starts
  rw [← Char.toNat_inj]
  omega

end IsDigitOf

/-- **Of two numbers of as many digits the first digit that differs decides**, if what was read
before these digits does not. Each digit goes into what was read before the remaining ones. -/
theorem ofDigitChars_lt_iff {first second : List Char} (before after : Nat)
    (together : first.length = second.length) (digits : ∀ digit ∈ first, IsDigitOf base digit)
    (others : ∀ digit ∈ second, IsDigitOf base digit) :
    Nat.ofDigitChars base first before < Nat.ofDigitChars base second after ↔
      before < after ∨ before = after ∧ first < second := by
  induction first generalizing second before after with
  | nil =>
    obtain rfl := List.length_eq_zero_iff.mp together.symm
    simp
  | cons digit first ih =>
    match second, together with
    | other :: second, together =>
      obtain ⟨isDigit, digits⟩ := List.forall_mem_cons.mp digits
      obtain ⟨isOther, others⟩ := List.forall_mem_cons.mp others
      have less := mul_add_lt_iff before after isDigit.below isOther.below
      have same := mul_add_eq_iff before after isDigit.below isOther.below
      rw [isDigit.lt_iff isOther] at less
      rw [isDigit.eq_iff isOther] at same
      have remaining := Nat.succ.inj together
      rw [Nat.ofDigitChars_cons, Nat.ofDigitChars_cons, ih _ _ remaining digits others, less, same,
        List.cons_lt_cons_iff, and_or_left, or_assoc, and_assoc]

end Digits

/-! ### Texts of numbers -/

/-- A text of some digits of a base, the most significant first, that denotes a number. -/
structure Spells (base count number : Nat) (text : String) : Prop where
  length : text.toList.length = count
  digits : ∀ digit ∈ text.toList, IsDigitOf base digit
  value : Nat.ofDigitChars base text.toList 0 = number

/-- Comparing is determined by what is less and what is equal. -/
theorem compareOfLessAndEq_congr {α β : Type} [LT α] [DecidableLT α] [DecidableEq α] [LT β]
    [DecidableLT β] [DecidableEq β] {first second : α} {other another : β}
    (less : first < second ↔ other < another) (same : first = second ↔ other = another) :
    compareOfLessAndEq first second = compareOfLessAndEq other another := by
  simp only [compareOfLessAndEq, less, same]

namespace Spells

variable {base count number other : Nat} {text second : String}
  (spells : Spells base count number text) (spellsOther : Spells base count other second)

include spells spellsOther

/-- **Texts of as many digits are ordered as their numbers.** -/
theorem lt_iff : text < second ↔ number < other := by
  have together := spells.length.trans spellsOther.length.symm
  rw [← spells.value, ← spellsOther.value,
    ofDigitChars_lt_iff 0 0 together spells.digits spellsOther.digits, String.lt_iff_toList_lt]
  simp

/-- **Texts of as many digits are equal exactly when their numbers are.** -/
theorem eq_iff : text = second ↔ number = other := by
  constructor
  · rintro rfl
    exact spells.value.symm.trans spellsOther.value
  · rintro rfl
    have notBefore : ¬ text < second := fun less =>
      Nat.lt_irrefl _ ((spells.lt_iff spellsOther).mp less)
    have notAfter : ¬ second < text := fun less =>
      Nat.lt_irrefl _ ((spellsOther.lt_iff spells).mp less)
    exact le_antisymm (not_lt.mp notAfter) (not_lt.mp notBefore)

theorem compare_eq : compare text second = compare number other :=
  compareOfLessAndEq_congr (spells.lt_iff spellsOther) (spells.eq_iff spellsOther)

end Spells

/-! ### The texts of a word -/

theorem Octal.value_digits (count number : Nat) :
    Octal.value (digits count number) = number % 8 ^ count := by
  show Nat.ofDigitChars 8 (digits count number) 0 = _
  induction count generalizing number with
  | zero => rw [Nat.pow_zero, Nat.mod_one, digits, Nat.ofDigitChars_nil]
  | succ count ih =>
    have small : number % 8 < 10 := Nat.lt_trans (Nat.mod_lt _ (by decide)) (by decide)
    rw [digits, Nat.ofDigitChars_append, ih, Nat.ofDigitChars_cons_digitChar_of_lt_ten small,
      Nat.ofDigitChars_nil, Nat.pow_succ', Nat.mod_mul, Nat.add_comm]

theorem Octal.isDigitOf_of_mem_digits {count number : Nat} {digit : Char}
    (member : digit ∈ digits count number) : IsDigitOf 8 digit := by
  induction count generalizing number with
  | zero => cases member
  | succ count ih =>
    rcases List.mem_append.mp member with earlier | last
    · exact ih earlier
    · rw [List.mem_singleton.mp last]
      exact .of_digitChar (Nat.mod_lt _ (by decide)) (by decide)

namespace Word

/-- **The octal text of a word spells its number**, which needs no thirteenth digit. -/
theorem spells_octal (word : Word) : Spells 8 12 word.toNat word.octal := by
  have text : word.octal.toList = Octal.digits 12 word.toNat := String.toList_ofList
  refine ⟨?_, fun digit member => ?_, ?_⟩
  · rw [text, Octal.length_digits]
  · rw [text] at member
    exact Octal.isDigitOf_of_mem_digits member
  · rw [text]
    exact (Octal.value_digits 12 _).trans (Nat.mod_eq_of_lt word.isLt)

/-- **The bits of a word spell its number** in base two. -/
theorem spells_bits (word : Word) : Spells 2 36 word.toNat word.bits := by
  have text : word.bits.toList =
      (List.range 36).map fun bit => if word.isSet bit then '1' else '0' := String.toList_ofList
  refine ⟨?_, fun digit member => ?_, ?_⟩
  · rw [text, List.length_map, List.length_range]
  · rw [text] at member
    obtain ⟨bit, _, rfl⟩ := List.mem_map.mp member
    cases word.isSet bit
    · exact ⟨by decide, by decide⟩
    · exact ⟨by decide, by decide⟩
  · have step (total bit : Nat) :
        2 * total + ((if word.isSet bit then '1' else '0').toNat - '0'.toNat) =
          2 * total + (word.isSet bit).toNat := by
      cases word.isSet bit <;> rfl
    rw [text, Nat.ofDigitChars_eq_foldl, List.foldl_map]
    simp only [step]
    rw [List.range_eq_range', foldl_isSet word 0 36 (Nat.le_refl _)]
    show word.toNat / 2 ^ 0 % 2 ^ 36 = word.toNat
    rw [Nat.pow_zero, Nat.div_one, Nat.mod_eq_of_lt word.isLt]

theorem compare_eq_compare_toNat (first second : Word) :
    compare first second = compare first.toNat second.toNat :=
  compareOfLessAndEq_congr BitVec.lt_def BitVec.toNat_inj.symm

/-- The word of a number of 64 bits that is written in octal digits. -/
def ofOctal? (text : String) : Option Word :=
  if text.toList ≠ [] ∧ (text.toList.all fun digit => '0' ≤ digit ∧ digit ≤ '7') ∧
      Octal.value text.toList < 2 ^ 64 then
    some (ofUInt64 (UInt64.ofNat (Octal.value text.toList)))
  else
    none

theorem octal_digits (word : Word) : ∀ digit ∈ word.octal.toList, '0' ≤ digit ∧ digit ≤ '7' := by
  intro digit member
  obtain ⟨starts, below⟩ := word.spells_octal.digits digit member
  have zero : '0'.toNat = 48 := rfl
  have seven : '7'.toNat = 55 := rfl
  refine ⟨UInt32.le_iff_toNat_le.mpr starts, UInt32.le_iff_toNat_le.mpr ?_⟩
  show digit.toNat ≤ '7'.toNat
  omega

theorem value_octal (word : Word) : Octal.value word.octal.toList = word.toNat :=
  word.spells_octal.value

/-- **An octal text is read back as its word.** -/
theorem ofOctal?_octal (word : Word) : ofOctal? word.octal = some word := by
  have nonempty : word.octal.toList ≠ [] :=
    List.ne_nil_of_length_pos (by rw [word.spells_octal.length]; decide)
  have small : word.toNat < 2 ^ 64 := Nat.lt_of_lt_of_le word.isLt (by decide)
  have number : (UInt64.ofNat word.toNat).toNat = word.toNat := UInt64.toNat_ofNat_of_lt' small
  have octal : word.octal.toList.all (fun digit => '0' ≤ digit ∧ digit ≤ '7') = true :=
    List.all_eq_true.mpr fun digit member => decide_eq_true (word.octal_digits digit member)
  rw [ofOctal?, value_octal, if_pos ⟨nonempty, octal, small⟩]
  refine congrArg some (BitVec.eq_of_toNat_eq ?_)
  rw [toNat_ofUInt64, number, Nat.mod_eq_of_lt word.isLt]

/-- **Words are ordered as their texts.** The words of two values compare as the low 36 bits of the
values, and in the lexicographic order their octal texts and their texts of bits compare in the same
way. Words are equal exactly when their texts are. The octal text of a word is twelve digits from
zero to seven, which denote the number of the word in base eight, and is read back as the word. -/
theorem ordered_as_texts :
    (∀ first second : UInt64,
      compare (ofUInt64 first) (ofUInt64 second) =
        compare (first.toNat % 2 ^ 36) (second.toNat % 2 ^ 36)) ∧
    (∀ first second : Word,
      compare first.octal second.octal = compare first second ∧
      compare first.bits second.bits = compare first second ∧
      (first = second ↔ first.octal = second.octal) ∧
      (first = second ↔ first.bits = second.bits)) ∧
    ∀ word : Word,
      word.octal.toList.length = 12 ∧
      (∀ digit ∈ word.octal.toList, '0' ≤ digit ∧ digit ≤ '7') ∧
      Octal.value word.octal.toList = word.toUInt64.toNat ∧
      ofOctal? word.octal = some word := by
  refine ⟨fun first second => ?_, fun first second => ?_, fun word => ?_⟩
  · rw [compare_eq_compare_toNat, toNat_ofUInt64, toNat_ofUInt64]
  · have octal := first.spells_octal.eq_iff second.spells_octal
    have bits := first.spells_bits.eq_iff second.spells_bits
    rw [compare_eq_compare_toNat, first.spells_octal.compare_eq second.spells_octal,
      first.spells_bits.compare_eq second.spells_bits, octal, bits, BitVec.toNat_inj]
    exact ⟨rfl, rfl, Iff.rfl, Iff.rfl⟩
  · rw [toNat_toUInt64]
    exact ⟨word.spells_octal.length, word.octal_digits, word.value_octal, word.ofOctal?_octal⟩

/-- Of `2 ^ 36 + 0o123` the first bit is dropped, so its word comes before that of `0o124`; its text
has nine leading zeros and then the digit one. -/
theorem ordered_as_texts_of_dropped_bit :
    compare (ofUInt64 0o1_000000_000123) (ofUInt64 0o124) = .lt ∧
      compare (octal 0o123) (octal 0o124) = .lt ∧
      '1' ∈ (octal 0o123).toList ∧ '0' ≤ '1' ∧ '1' ≤ '7' ∧
      ofOctal? (octal 0o123) = some 0o123 := by
  obtain ⟨numbers, texts, spelled⟩ := ordered_as_texts
  obtain ⟨_, digits, _, readBack⟩ := spelled 0o123
  have one : '1' ∈ (octal 0o123).toList := by decide
  refine ⟨(numbers _ _).trans (by decide), (texts _ _).1.trans (by decide), one, ?_⟩
  exact ⟨(digits _ one).1, (digits _ one).2, readBack⟩

end Word

end ControlWords
