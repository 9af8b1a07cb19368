/-
**How numbers are spelled.**

A number is spelled by an optional minus, a whole part without leading zeros, and optionally a
fraction and an exponent. The parts are described by a grammar, apart from the functions that scan
for them:

* `isNumber_of_scanNumber`: what is read is spelled by the parts of a number;
* `scanNumber_of_isNumber`: these parts are read where no character follows that a number could go
  on with;
* `isNumber_natural_iff`: a natural number has one spelling, its decimal numeral.
-/

import ControlWords.Json.Lexer

namespace ControlWords.Json

/-! ### Digits -/

theorem ne_of_isDigit {character other : Char} (digit : character.isDigit = true)
    (noDigit : other.isDigit = false) : character ≠ other := by
  rintro rfl
  rw [digit] at noDigit
  cases noDigit

/-- Decimal digits, at least one. -/
structure IsDigits (digits : List Char) : Prop where
  nonempty : digits ≠ []
  digit : ∀ digit ∈ digits, digit.isDigit = true

theorem IsDigits.exists_eq_cons {digits : List Char} (all : IsDigits digits) :
    ∃ first others, digits = first :: others ∧ first.isDigit = true := by
  match digits, all.nonempty, all.digit with
  | first :: others, _, digit => exact ⟨first, others, rfl, digit first List.mem_cons_self⟩

/-- A run of digits cannot go on with these characters. -/
def EndsDigits : List Char → Prop
  | [] => True
  | character :: _ => character.isDigit = false

theorem isDigits_of_scanDigits {characters digits rest : List Char}
    (scanned : scanDigits characters = some (digits, rest)) :
    IsDigits digits ∧ characters = digits ++ rest := by
  obtain ⟨nonempty, rfl, rfl⟩ := scanDigits_eq_some_iff.mp scanned
  refine ⟨⟨nonempty, ?_⟩, List.takeWhile_append_dropWhile.symm⟩
  exact List.all_eq_true.mp List.all_takeWhile

/-- Digits are read up to the first character that is none. -/
theorem scanDigits_append {digits rest : List Char} (all : IsDigits digits)
    (ends : EndsDigits rest) : scanDigits (digits ++ rest) = some (digits, rest) := by
  have after : rest.takeWhile Char.isDigit = [] ∧ rest.dropWhile Char.isDigit = rest := by
    match rest, ends with
    | [], _ => exact ⟨rfl, rfl⟩
    | character :: rest, ends =>
      rw [EndsDigits] at ends
      rw [List.takeWhile_cons_of_neg (by rw [ends]; decide),
        List.dropWhile_cons_of_neg (by rw [ends]; decide)]
      exact ⟨rfl, rfl⟩
  rw [scanDigits_eq_some_iff, List.takeWhile_append_of_pos all.digit,
    List.dropWhile_append_of_pos all.digit, after.1, after.2, List.append_nil]
  exact ⟨all.nonempty, rfl, rfl⟩

/-! ### The parts of a number -/

/-- A lone zero, or digits that begin otherwise. -/
def IsWhole (whole : List Char) : Prop :=
  whole = ['0'] ∨ IsDigits whole ∧ whole.head? ≠ some '0'

/-- Nothing, or a point with digits behind it. -/
def IsFraction (fraction : List Char) : Prop :=
  fraction = [] ∨ ∃ digits, IsDigits digits ∧ fraction = '.' :: digits

/-- Nothing, or the mark of an exponent, a sign if there is one, and digits. -/
def IsExponent (exponent : List Char) : Prop :=
  exponent = [] ∨ ∃ mark sign digits, (mark = 'e' ∨ mark = 'E') ∧
    (sign = [] ∨ sign = ['+'] ∨ sign = ['-']) ∧ IsDigits digits ∧
      exponent = mark :: (sign ++ digits)

/-- The parts of a number, in the order in which they are spelled. -/
structure IsNumber (minus whole fraction exponent : List Char) : Prop where
  minus : minus = [] ∨ minus = ['-']
  whole : IsWhole whole
  fraction : IsFraction fraction
  exponent : IsExponent exponent

/-- The value of a number: a natural if it consists of nothing but its whole part. -/
def numberValue (minus whole fraction exponent : List Char) : Scalar :=
  if minus = [] ∧ fraction = [] ∧ exponent = [] then
    .natural (decimalValue whole)
  else
    .number (minus ++ whole ++ fraction ++ exponent)

/-- A number cannot go on with these characters. -/
def EndsNumber : List Char → Prop
  | [] => True
  | character :: _ =>
    character.isDigit = false ∧ character ≠ '.' ∧ character ≠ 'e' ∧ character ≠ 'E'

theorem EndsNumber.endsDigits {rest : List Char} (ends : EndsNumber rest) : EndsDigits rest := by
  match rest, ends with
  | [], _ => trivial
  | _ :: _, ends => exact ends.1

theorem IsWhole.isDigits {whole : List Char} (isWhole : IsWhole whole) : IsDigits whole := by
  rcases isWhole with rfl | ⟨digits, _⟩
  · exact ⟨List.cons_ne_nil _ _, List.forall_mem_singleton.mpr rfl⟩
  · exact digits

/-! ### Numbers -/

theorem isWhole_of_scanWhole {characters whole rest : List Char}
    (scanned : scanWhole characters = some (whole, rest)) :
    IsWhole whole ∧ characters = whole ++ rest := by
  unfold scanWhole at scanned
  split at scanned
  · cases scanned
    exact ⟨.inl rfl, rfl⟩
  · rename_i noZero
    obtain ⟨digits, rfl⟩ := isDigits_of_scanDigits scanned
    refine ⟨.inr ⟨digits, fun zero => ?_⟩, rfl⟩
    obtain ⟨others, rfl⟩ := List.head?_eq_some_iff.mp zero
    exact noZero _ rfl

theorem scanWhole_append {whole rest : List Char} (isWhole : IsWhole whole)
    (ends : EndsDigits rest) : scanWhole (whole ++ rest) = some (whole, rest) := by
  rcases isWhole with rfl | ⟨digits, leading⟩
  · rfl
  · rw [← scanDigits_append digits ends, scanWhole.eq_def]
    obtain ⟨first, others, rfl, _⟩ := digits.exists_eq_cons
    split
    · rename_i same
      exact absurd (congrArg some (List.cons.inj same).1) leading
    · rfl

theorem minus_of_scanMinus (characters : List Char) :
    ((scanMinus characters).1 = [] ∨ (scanMinus characters).1 = ['-']) ∧
      characters = (scanMinus characters).1 ++ (scanMinus characters).2 := by
  unfold scanMinus
  split
  · exact ⟨.inr rfl, rfl⟩
  · exact ⟨.inl rfl, rfl⟩

/-- A minus is read before digits, and nothing is read where there is none. -/
theorem scanMinus_append {minus digits rest : List Char} (sign : minus = [] ∨ minus = ['-'])
    (isDigits : IsDigits digits) :
    scanMinus (minus ++ (digits ++ rest)) = (minus, digits ++ rest) := by
  rcases sign with rfl | rfl
  · obtain ⟨first, others, rfl, digit⟩ := isDigits.exists_eq_cons
    rw [List.nil_append, List.cons_append, scanMinus.eq_def]
    split
    · rename_i same
      exact absurd (List.cons.inj same).1 (ne_of_isDigit digit rfl)
    · rfl
  · rfl

theorem isFraction_of_scanFraction {characters fraction rest : List Char}
    (scanned : scanFraction characters = some (fraction, rest)) :
    IsFraction fraction ∧ characters = fraction ++ rest := by
  unfold scanFraction at scanned
  split at scanned
  · simp only [Option.bind_eq_bind, Option.bind_eq_some_iff] at scanned
    obtain ⟨⟨digits, after⟩, read, equal⟩ := scanned
    obtain ⟨isDigits, rfl⟩ := isDigits_of_scanDigits read
    cases equal
    exact ⟨.inr ⟨_, isDigits, rfl⟩, rfl⟩
  · cases scanned
    exact ⟨.inl rfl, rfl⟩

theorem scanFraction_append {fraction rest : List Char} (isFraction : IsFraction fraction)
    (ends : EndsDigits rest) (noPoint : rest.head? ≠ some '.') :
    scanFraction (fraction ++ rest) = some (fraction, rest) := by
  rcases isFraction with rfl | ⟨digits, isDigits, rfl⟩
  · rw [List.nil_append]
    unfold scanFraction
    split
    · exact absurd rfl noPoint
    · rfl
  · show (scanDigits (digits ++ rest)).bind _ = _
    rw [scanDigits_append isDigits ends]
    rfl

theorem sign_of_scanSign (characters : List Char) :
    ((scanSign characters).1 = [] ∨ (scanSign characters).1 = ['+'] ∨
        (scanSign characters).1 = ['-']) ∧
      characters = (scanSign characters).1 ++ (scanSign characters).2 := by
  unfold scanSign
  split
  · exact ⟨.inr (.inl rfl), rfl⟩
  · exact ⟨.inr (.inr rfl), rfl⟩
  · exact ⟨.inl rfl, rfl⟩

theorem scanSign_append {sign digits rest : List Char}
    (signs : sign = [] ∨ sign = ['+'] ∨ sign = ['-']) (isDigits : IsDigits digits) :
    scanSign (sign ++ (digits ++ rest)) = (sign, digits ++ rest) := by
  rcases signs with rfl | rfl | rfl
  · obtain ⟨first, others, rfl, digit⟩ := isDigits.exists_eq_cons
    rw [List.nil_append, List.cons_append, scanSign.eq_def]
    split
    · rename_i same
      exact absurd (List.cons.inj same).1 (ne_of_isDigit digit rfl)
    · rename_i same
      exact absurd (List.cons.inj same).1 (ne_of_isDigit digit rfl)
    · rfl
  · rfl
  · rfl

theorem isExponent_of_scanExponent {characters exponent rest : List Char}
    (scanned : scanExponent characters = some (exponent, rest)) :
    IsExponent exponent ∧ characters = exponent ++ rest := by
  unfold scanExponent at scanned
  split at scanned
  · cases scanned
    exact ⟨.inl rfl, rfl⟩
  · split at scanned
    · rename_i mark tail marks
      simp only [Option.bind_eq_bind, Option.bind_eq_some_iff] at scanned
      obtain ⟨⟨digits, after⟩, read, equal⟩ := scanned
      obtain ⟨isDigits, parts⟩ := isDigits_of_scanDigits read
      obtain ⟨signs, whole⟩ := sign_of_scanSign tail
      cases equal
      refine ⟨.inr ⟨mark, _, digits, marks, signs, isDigits, rfl⟩, ?_⟩
      rw [List.cons_append, List.append_assoc, ← parts, ← whole]
    · cases scanned
      exact ⟨.inl rfl, rfl⟩

theorem scanExponent_append {exponent rest : List Char} (isExponent : IsExponent exponent)
    (ends : EndsNumber rest) : scanExponent (exponent ++ rest) = some (exponent, rest) := by
  rcases isExponent with rfl | ⟨mark, sign, digits, marks, signs, isDigits, rfl⟩
  · match rest, ends with
    | [], _ => rfl
    | character :: rest, ends =>
      exact if_neg fun mark => mark.elim ends.2.2.1 ends.2.2.2
  · rw [List.cons_append, List.append_assoc, scanExponent.eq_def]
    simp only [if_pos marks, scanSign_append signs isDigits,
      scanDigits_append isDigits ends.endsDigits]
    rfl

/-- An exponent neither continues the digits before it nor begins with a point. -/
theorem IsExponent.ends {exponent rest : List Char} (isExponent : IsExponent exponent)
    (ends : EndsNumber rest) :
    EndsDigits (exponent ++ rest) ∧ (exponent ++ rest).head? ≠ some '.' := by
  rcases isExponent with rfl | ⟨mark, sign, digits, marks, _, _, rfl⟩
  · refine ⟨ends.endsDigits, ?_⟩
    match rest, ends with
    | [], _ => exact nofun
    | character :: rest, ends => exact fun point => ends.2.1 (Option.some.inj point)
  · rcases marks with rfl | rfl
    · exact ⟨rfl, by simp⟩
    · exact ⟨rfl, by simp⟩

theorem IsFraction.endsDigits {fraction rest : List Char} (isFraction : IsFraction fraction)
    (ends : EndsDigits rest) : EndsDigits (fraction ++ rest) := by
  rcases isFraction with rfl | ⟨digits, _, rfl⟩
  · exact ends
  · exact rfl

theorem isNumber_of_scanNumber {characters rest : List Char} {value : Scalar}
    (scanned : scanNumber characters = some (value, rest)) :
    ∃ minus whole fraction exponent, IsNumber minus whole fraction exponent ∧
      value = numberValue minus whole fraction exponent ∧
        characters = minus ++ whole ++ fraction ++ exponent ++ rest := by
  simp only [scanNumber, Option.bind_eq_bind, Option.bind_eq_some_iff] at scanned
  obtain ⟨⟨whole, first⟩, readWhole, ⟨fraction, second⟩, readFraction, ⟨exponent, third⟩,
    readExponent, result⟩ := scanned
  obtain ⟨minus, parts⟩ := minus_of_scanMinus characters
  obtain ⟨isWhole, afterMinus⟩ := isWhole_of_scanWhole readWhole
  obtain ⟨isFraction, rfl⟩ := isFraction_of_scanFraction readFraction
  obtain ⟨isExponent, rfl⟩ := isExponent_of_scanExponent readExponent
  have spelled : characters =
      (scanMinus characters).1 ++ whole ++ fraction ++ exponent ++ third := by
    refine parts.trans ?_
    rw [afterMinus]
    simp only [List.append_assoc]
  refine ⟨_, whole, fraction, exponent, ⟨minus, isWhole, isFraction, isExponent⟩, ?_⟩
  rw [numberValue]
  split at result
  · rename_i bare
    cases result
    exact ⟨(if_pos bare).symm, spelled⟩
  · rename_i more
    cases result
    exact ⟨(if_neg more).symm, spelled⟩

/-- **A number is read as far as it goes on.** -/
theorem scanNumber_of_isNumber {minus whole fraction exponent rest : List Char}
    (parts : IsNumber minus whole fraction exponent) (ends : EndsNumber rest) :
    scanNumber (minus ++ whole ++ fraction ++ exponent ++ rest) =
      some (numberValue minus whole fraction exponent, rest) := by
  have afterFraction := parts.exponent.ends ends
  have afterWhole := parts.fraction.endsDigits afterFraction.1
  have signed : scanMinus (minus ++ (whole ++ (fraction ++ (exponent ++ rest)))) =
      (minus, whole ++ (fraction ++ (exponent ++ rest))) :=
    scanMinus_append parts.minus parts.whole.isDigits
  rw [scanNumber]
  simp only [List.append_assoc, signed, Option.bind_eq_bind, Option.bind_some,
    scanWhole_append parts.whole afterWhole,
    scanFraction_append parts.fraction afterFraction.1 afterFraction.2,
    scanExponent_append parts.exponent ends]
  rw [numberValue]
  split <;> simp

/-- A number begins with a minus or a digit. -/
theorem IsNumber.exists_eq_cons {minus whole fraction exponent : List Char}
    (parts : IsNumber minus whole fraction exponent) :
    ∃ first others, minus ++ whole ++ fraction ++ exponent = first :: others ∧
      (first = '-' ∨ first.isDigit = true) := by
  rcases parts.minus with rfl | rfl
  · obtain ⟨first, others, rfl, digit⟩ := parts.whole.isDigits.exists_eq_cons
    exact ⟨first, others ++ fraction ++ exponent, by simp, .inr digit⟩
  · exact ⟨'-', whole ++ fraction ++ exponent, by simp, .inl rfl⟩

/-! ### Decimal numerals -/

theorem digitChar_of_isDigit {digit : Char} (isDigit : digit.isDigit = true) :
    digit.toNat - '0'.toNat < 10 ∧ Nat.digitChar (digit.toNat - '0'.toNat) = digit := by
  obtain ⟨above, below⟩ := Char.isDigit_iff_toNat.mp isDigit
  change 48 ≤ digit.toNat at above
  change digit.toNat ≤ 57 at below
  show digit.toNat - 48 < 10 ∧ Nat.digitChar (digit.toNat - 48) = digit
  have small : digit.toNat - 48 < 10 := by omega
  refine ⟨small, Char.toNat_inj.mp ?_⟩
  rw [Nat.toNat_digitChar_of_lt_ten small]
  omega

/-- Digits after the numeral of a positive number continue it. -/
theorem toDigits_append_digits {digits : List Char} {total : Nat} (positive : 0 < total)
    (all : ∀ digit ∈ digits, digit.isDigit = true) :
    Nat.toDigits 10 total ++ digits = Nat.toDigits 10
      (digits.foldl (fun total digit => 10 * total + (digit.toNat - '0'.toNat)) total) := by
  induction digits generalizing total with
  | nil => exact List.append_nil _
  | cons digit digits ih =>
    rw [List.forall_mem_cons] at all
    obtain ⟨small, same⟩ := digitChar_of_isDigit all.1
    have next := Nat.toDigits_append_toDigits (b := 10) (by decide) positive small
    rw [Nat.toDigits_of_lt_base small, same] at next
    rw [List.foldl_cons, ← ih (by omega) all.2, ← next, List.append_assoc, List.singleton_append]

/-- **A whole part is the numeral of its value.** -/
theorem IsWhole.toDigits_decimalValue {whole : List Char} (isWhole : IsWhole whole) :
    Nat.toDigits 10 (decimalValue whole) = whole := by
  rcases isWhole with rfl | ⟨digits, leading⟩
  · rfl
  · match whole, digits.nonempty, digits.digit, leading with
    | first :: others, _, all, leading =>
      rw [List.forall_mem_cons] at all
      obtain ⟨small, same⟩ := digitChar_of_isDigit all.1
      have positive : 0 < first.toNat - '0'.toNat := by
        refine Nat.pos_of_ne_zero fun zero => leading ?_
        rw [zero] at same
        exact congrArg some same.symm
      have continued := toDigits_append_digits positive all.2
      rw [Nat.toDigits_of_lt_base small, same, List.singleton_append] at continued
      rw [decimalValue, List.foldl_cons, Nat.mul_zero, Nat.zero_add, ← continued]

theorem isDigit_toDigits (value : Nat) :
    ∀ digit ∈ Nat.toDigits 10 value, digit.isDigit = true :=
  fun _ member => Nat.isDigit_of_mem_toDigits (by decide) (by decide) member

/-- The numeral of a positive number does not begin with a zero. -/
theorem exists_toDigits_eq_cons (value : Nat) (positive : 0 < value) :
    ∃ first others, Nat.toDigits 10 value = first :: others ∧ first ≠ '0' := by
  have digits : ∀ digit < 10, 0 < digit → Nat.digitChar digit ≠ '0' := by decide
  induction value using Nat.strongRecOn with
  | ind value ih =>
    by_cases single : value < 10
    · exact ⟨_, [], Nat.toDigits_of_lt_base single, digits value single positive⟩
    · obtain ⟨first, others, equal, leading⟩ := ih (value / 10) (by omega) (by omega)
      rw [Nat.toDigits_of_base_le (by decide) (Nat.le_of_not_lt single), equal]
      exact ⟨first, others ++ [Nat.digitChar (value % 10)], rfl, leading⟩

theorem isWhole_toDigits (value : Nat) : IsWhole (Nat.toDigits 10 value) := by
  rcases Nat.eq_zero_or_pos value with rfl | positive
  · exact .inl rfl
  · obtain ⟨first, others, equal, leading⟩ := exists_toDigits_eq_cons value positive
    refine .inr ⟨⟨Nat.toDigits_ne_nil, isDigit_toDigits value⟩, ?_⟩
    rw [equal]
    exact fun zero => leading (Option.some.inj zero)

theorem decimalValue_toDigits (value : Nat) : decimalValue (Nat.toDigits 10 value) = value :=
  Nat.ofDigitChars_ten_toDigits

/-- **A natural number has one spelling**, its decimal numeral. -/
theorem isNumber_natural_iff {value : Nat} {minus whole fraction exponent : List Char} :
    IsNumber minus whole fraction exponent ∧
        numberValue minus whole fraction exponent = .natural value ↔
      minus = [] ∧ whole = Nat.toDigits 10 value ∧ fraction = [] ∧ exponent = [] := by
  constructor
  · rintro ⟨parts, denoted⟩
    unfold numberValue at denoted
    split at denoted
    · rename_i bare
      obtain ⟨rfl, rfl, rfl⟩ := bare
      cases denoted
      exact ⟨rfl, parts.whole.toDigits_decimalValue.symm, rfl, rfl⟩
    · cases denoted
  · rintro ⟨rfl, rfl, rfl, rfl⟩
    refine ⟨⟨.inl rfl, isWhole_toDigits value, .inl rfl, .inl rfl⟩, ?_⟩
    rw [numberValue, if_pos ⟨rfl, rfl, rfl⟩, decimalValue_toDigits]

end ControlWords.Json
