/-
**What is accepted as a number.**

Words, locks, keys and designator registers are written as a number. Each is read from any number of
64 bits, of which it keeps the bits that it has room for. Blanks may stand before and after the
number and nothing else may stand anywhere:

* `laidOut_natural_iff`: a text holds a natural number exactly when, with the blanks at both ends
  taken off, it is a numeral of this number;
* `number?_eq_some_iff`: a 64-bit number is found in the value that is this number and in no other;
* `ReadThrough.readsNumerals`: what follows for a type that is built of the number found;
* `integers_read_exactly`: the texts that are accepted as words, locks, keys and registers, what
  they are read as and what is written again.
-/

import Mathlib.Data.List.DropRight
import ControlWords.Proofs.Access.Composites
import ControlWords.Proofs.Json.Layout
import ControlWords.Proofs.Json.Reading
import ControlWords.BitField.Lemmas

namespace ControlWords

namespace Json

/-! ### Numerals -/

/-- Decimal digits that denote a number: at least one, and no zero before another digit. -/
def IsNumeral (digits : List Char) (value : Nat) : Prop :=
  IsWhole digits ∧ decimalValue digits = value

/-- **A number has one numeral.** -/
theorem isNumeral_iff {digits : List Char} {value : Nat} :
    IsNumeral digits value ↔ digits = Nat.toDigits 10 value := by
  constructor
  · rintro ⟨isWhole, rfl⟩
    exact isWhole.toDigits_decimalValue.symm
  · rintro rfl
    exact ⟨isWhole_toDigits value, decimalValue_toDigits value⟩

/-! ### Blanks at both ends -/

/-- The characters between the blanks at both ends. -/
def trim (characters : List Char) : List Char :=
  (characters.dropWhile isBlank).rdropWhile isBlank

/-- What is trimmed away is blank. -/
theorem exists_append_trim (characters : List Char) :
    ∃ before after, (∀ character ∈ before, isBlank character = true) ∧
      (∀ character ∈ after, isBlank character = true) ∧
        characters = before ++ trim characters ++ after := by
  refine ⟨characters.takeWhile isBlank, (characters.dropWhile isBlank).rtakeWhile isBlank,
    fun _ member => List.mem_takeWhile_imp member,
    fun _ member => List.mem_rtakeWhile_imp member, ?_⟩
  rw [trim, List.append_assoc, List.rdropWhile_append_rtakeWhile, List.takeWhile_append_dropWhile]

/-- Digits between blanks are what trimming leaves. -/
theorem trim_append {before digits after : List Char}
    (blankBefore : ∀ character ∈ before, isBlank character = true)
    (blankAfter : ∀ character ∈ after, isBlank character = true) (isDigits : IsDigits digits) :
    trim (before ++ digits ++ after) = digits := by
  have visible : ∀ digit ∈ digits, ¬ isBlank digit = true := fun digit member => by
    rw [(scanToken_of_starts (.inr (isDigits.digit digit member)) []).1]
    exact Bool.false_ne_true
  have front : (before ++ digits ++ after).dropWhile isBlank = digits ++ after := by
    obtain ⟨first, others, rfl, _⟩ := isDigits.exists_eq_cons
    rw [List.append_assoc, List.dropWhile_append_of_pos blankBefore, List.cons_append,
      List.dropWhile_cons_of_neg (visible first List.mem_cons_self)]
  have back : digits.reverse.dropWhile isBlank = digits.reverse :=
    List.dropWhile_eq_self_iff.mpr fun nonempty =>
      visible _ (List.mem_reverse.mp (List.getElem_mem nonempty))
  have blankReverse : ∀ character ∈ after.reverse, isBlank character = true :=
    fun character member => blankAfter character (List.mem_reverse.mp member)
  rw [trim, front, List.rdropWhile, List.reverse_append, List.dropWhile_append_of_pos blankReverse,
    back, List.reverse_reverse]

/-! ### Texts of one token -/

theorem isBlank_of_layout_nil {characters : List Char} (layout : Layout [] characters) :
    ∀ character ∈ characters, isBlank character = true := by
  generalize none : ([] : List Token) = tokens at layout
  induction layout with
  | nil => exact List.forall_mem_nil _
  | blank isBlank _ ih => exact List.forall_mem_cons.mpr ⟨isBlank, ih none⟩
  | token => cases none

theorem Layout.blanks_append {before characters : List Char} {tokens : List Token}
    (blank : ∀ character ∈ before, isBlank character = true) (rest : Layout tokens characters) :
    Layout tokens (before ++ characters) := by
  induction before with
  | nil => exact rest
  | cons character before ih =>
    rw [List.forall_mem_cons] at blank
    exact .blank blank.1 (ih blank.2)

/-- **A text of one token is a spelling of the token between blanks.** -/
theorem layout_singleton_iff {token : Token} {characters : List Char} :
    Layout [token] characters ↔ ∃ before spelling after,
      (∀ character ∈ before, isBlank character = true) ∧
        (∀ character ∈ after, isBlank character = true) ∧
          token.SpelledAs spelling ∧ characters = before ++ spelling ++ after := by
  constructor
  · intro layout
    generalize single : [token] = tokens at layout
    induction layout with
    | nil => cases single
    | @blank character _ _ isBlank _ ih =>
      obtain ⟨before, spelling, after, blankBefore, blankAfter, spelled, rfl⟩ := ih single
      exact ⟨character :: before, spelling, after,
        List.forall_mem_cons.mpr ⟨isBlank, blankBefore⟩, blankAfter, spelled, rfl⟩
    | @token _ spelling _ after spelled rest _ =>
      cases single
      exact ⟨[], spelling, after, List.forall_mem_nil _, isBlank_of_layout_nil rest, spelled, rfl⟩
  · rintro ⟨before, spelling, after, blankBefore, blankAfter, spelled, rfl⟩
    have ending : Layout [] (after ++ []) := .blanks_append blankAfter .nil
    rw [List.append_nil] at ending
    rw [List.append_assoc]
    exact .blanks_append blankBefore (.token spelled ending)

/-- **A text holds a natural number exactly when it is a numeral of it**, up to blanks at the ends.
-/
theorem laidOut_natural_iff {value : Nat} {text : String} :
    LaidOut (natural value) text ↔ IsNumeral (trim text.toList) value := by
  have single : (natural value).tokens = [.scalar (.natural value)] := rfl
  rw [LaidOut, single, layout_singleton_iff]
  constructor
  · rintro ⟨before, spelling, after, blankBefore, blankAfter, spelled, parts⟩
    have numeral := isNumeral_iff.mpr (spelledAs_natural_iff.mp spelled)
    rwa [parts, trim_append blankBefore blankAfter numeral.1.isDigits]
  · intro numeral
    obtain ⟨before, after, blankBefore, blankAfter, parts⟩ := exists_append_trim text.toList
    exact ⟨before, trim text.toList, after, blankBefore, blankAfter,
      spelledAs_natural_iff.mpr (isNumeral_iff.mp numeral), parts⟩

/-- Beside the digits of a numeral a text has blanks only. -/
theorem isBlank_or_isDigit_of_isNumeral {characters : List Char} {value : Nat}
    (numeral : IsNumeral (trim characters) value) :
    ∀ character ∈ characters, isBlank character = true ∨ character.isDigit = true := by
  obtain ⟨before, after, blankBefore, blankAfter, parts⟩ := exists_append_trim characters
  intro character member
  rw [parts, List.mem_append, List.mem_append] at member
  rcases member with (inBefore | inside) | inAfter
  · exact .inl (blankBefore character inBefore)
  · exact .inr (numeral.1.isDigits.digit character inside)
  · exact .inl (blankAfter character inAfter)

/-- The compact text of a natural number is its decimal text. -/
theorem compact_natural (value : Nat) : (natural value).compact = Nat.repr value := by
  show String.ofList (Nat.toDigits 10 value ++ []) = Nat.repr value
  rw [List.append_nil]
  rfl

/-! ### Numbers below a bound -/

theorem natural?_eq_some_iff {json : Json} {value : Nat} :
    json.natural? = some value ↔ json = natural value := by
  constructor
  · intro read
    unfold natural? at read
    split at read
    · cases read
      rfl
    · cases read
  · rintro rfl
    rfl

theorem naturalBelow?_eq_some_iff {bound value : Nat} {json : Json} :
    json.naturalBelow? bound = some value ↔ json = natural value ∧ value < bound := by
  simp only [naturalBelow?, Option.bind_eq_bind, Option.bind_eq_some_iff, natural?_eq_some_iff,
    Option.ite_none_right_eq_some, Option.some.injEq]
  constructor
  · rintro ⟨_, rfl, below, rfl⟩
    exact ⟨rfl, below⟩
  · rintro ⟨rfl, below⟩
    exact ⟨value, rfl, below, rfl⟩

/-- **A 64-bit number is read from its numeral** and from nothing else. -/
theorem number?_eq_some_iff {json : Json} {number : UInt64} :
    json.number? = some number ↔ json = natural number.toNat := by
  have unfolded : json.number? = (json.naturalBelow? UInt64.size).map UInt64.ofNat := rfl
  simp only [unfolded, Option.map_eq_some_iff, naturalBelow?_eq_some_iff]
  constructor
  · rintro ⟨value, ⟨rfl, below⟩, rfl⟩
    exact congrArg natural (UInt64.toNat_ofNat_of_lt' below).symm
  · rintro rfl
    exact ⟨number.toNat, ⟨rfl, number.toNat_lt⟩, UInt64.ofNat_toNat⟩

end Json

/-! ### Types that are built of a number -/

/-- What is found in one kind of value only is read from the layouts of that value. -/
theorem ReadThrough.read?_eq_some_iff {α β : Type} [JsonCodec α] {find : Json → Option β}
    {build : β → α} (through : ReadThrough find build) {form : β → Json}
    (found : ∀ {json content}, find json = some content ↔ json = form content) {text : String}
    {value : α} :
    Json.read? text = some value ↔
      ∃ content, Json.LaidOut (form content) text ∧ build content = value := by
  rw [through.read?, Option.map_eq_some_iff]
  simp only [Option.bind_eq_some_iff, Json.parse?_eq_some_iff, found]
  constructor
  · rintro ⟨content, ⟨_, layout, rfl⟩, built⟩
    exact ⟨content, layout, built⟩
  · rintro ⟨content, layout, built⟩
    exact ⟨content, ⟨_, layout, rfl⟩, built⟩

/-- The numerals of 64-bit numbers, with blanks around them, are what a type is read from, and its
values are written as the numerals of the low `kept` bits of these numbers. -/
structure ReadsNumerals {α : Type} [JsonCodec α] (build : UInt64 → α) (kept : Nat) : Prop where
  accepts : ∀ text : String, (Json.read? text : Option α).isSome ↔
    ∃ number < 2 ^ 64, Json.IsNumeral (Json.trim text.toList) number
  reads : ∀ (text : String) (number : Nat), number < 2 ^ 64 →
    Json.IsNumeral (Json.trim text.toList) number →
      Json.read? text = some (build (UInt64.ofNat number))
  writes : ∀ number : UInt64, Json.write (build number) = Nat.repr (number.toNat % 2 ^ kept)
  /-- A sign, a point, the mark of an exponent and a quote are such characters. -/
  refuses_other : ∀ (text : String), ∀ character ∈ text.toList,
    Json.isBlank character = false → character.isDigit = false →
      (Json.read? text : Option α) = none
  refuses_large : ∀ (text : String) (number : Nat), 2 ^ 64 ≤ number →
    Json.IsNumeral (Json.trim text.toList) number → (Json.read? text : Option α) = none

/-- **A type that is built of the number found is read from the numerals of 64-bit numbers.** -/
theorem ReadThrough.readsNumerals {α : Type} [JsonCodec α] {build : UInt64 → α} {kept : Nat}
    (through : ReadThrough Json.number? build)
    (written : ∀ number, JsonCodec.encode (build number) = .natural (number.toNat % 2 ^ kept)) :
    ReadsNumerals build kept := by
  have read {text : String} {value : α} : Json.read? text = some value ↔ ∃ number : UInt64,
      Json.IsNumeral (Json.trim text.toList) number.toNat ∧ build number = value := by
    simp only [through.read?_eq_some_iff Json.number?_eq_some_iff, Json.laidOut_natural_iff]
  refine ⟨fun text => ?_, fun text number small numeral => ?_, fun number => ?_,
    fun text character member visible noDigit => ?_, fun text number large numeral => ?_⟩
  · rw [Option.isSome_iff_exists]
    simp only [read]
    constructor
    · rintro ⟨_, number, numeral, _⟩
      exact ⟨number.toNat, number.toNat_lt, numeral⟩
    · rintro ⟨number, small, numeral⟩
      rw [← UInt64.toNat_ofNat_of_lt' small] at numeral
      exact ⟨_, UInt64.ofNat number, numeral, rfl⟩
  · rw [← UInt64.toNat_ofNat_of_lt' small] at numeral
    exact read.mpr ⟨UInt64.ofNat number, numeral, rfl⟩
  · rw [Json.write, written, Json.compact_natural]
  · refine Option.eq_none_iff_forall_ne_some.mpr fun value accepted => ?_
    obtain ⟨_, numeral, _⟩ := read.mp accepted
    rcases Json.isBlank_or_isDigit_of_isNumeral numeral character member with blank | digit
    · exact Bool.false_ne_true (visible.symm.trans blank)
    · exact Bool.false_ne_true (noDigit.symm.trans digit)
  · refine Option.eq_none_iff_forall_ne_some.mpr fun value accepted => ?_
    obtain ⟨other, otherNumeral, _⟩ := read.mp accepted
    have same : other.toNat = number := otherNumeral.2.symm.trans numeral.2
    have small : other.toNat < 2 ^ 64 := other.toNat_lt
    omega

/-- **Words, locks, keys and registers are read from exactly the numerals of 64-bit numbers.** A
text is accepted as one of them when, with the blanks at both ends taken off, it is a run of digits
without a leading zero that denotes a number below `2 ^ 64`. The value is then the one that is built
of this number. What is written for it is the decimal text of the low 36 bits of the number, or for
a lock or a key of the low 18. A text with any other character than digits and blanks is refused,
and so is the numeral of a larger number. -/
theorem integers_read_exactly :
    ReadsNumerals Word.ofUInt64 36 ∧
      (∀ role : AccessRole, ReadsNumerals (Access.ofComposite : UInt64 → Access role) 18) ∧
        ReadsNumerals DesignatorRegister.ofComposite 36 := by
  refine ⟨Word.readThrough.readsNumerals fun number => ?_,
    fun role => (Access.readThrough role).readsNumerals fun number => ?_,
    DesignatorRegister.readThrough.readsNumerals fun number => ?_⟩
  · exact congrArg Json.natural (Word.toNat_ofUInt64 number)
  · exact congrArg Json.natural (Access.toNat_composite_ofComposite number)
  · exact congrArg Json.natural (Word.toNat_ofUInt64 number)

/-- A number between blanks is read as the word of its low bits, a minus is refused even before a
zero, and `2 ^ 64` is refused. -/
theorem integers_read_exactly_between_blanks :
    (68719476741 < 2 ^ 64 ∧ Json.IsNumeral (Json.trim "\t68719476741 ".toList) 68719476741 ∧
      Json.read? "\t68719476741 " = some (5 : Word)) ∧
    ('-' ∈ "-0".toList ∧ Json.isBlank '-' = false ∧ '-'.isDigit = false ∧
      (Json.read? "-0" : Option AccessLock) = none) ∧
    (2 ^ 64 ≤ 18446744073709551616 ∧
      Json.IsNumeral (Json.trim "18446744073709551616".toList) 18446744073709551616 ∧
        (Json.read? "18446744073709551616" : Option DesignatorRegister) = none) := by
  obtain ⟨words, access, registers⟩ := integers_read_exactly
  have numeral : Json.IsNumeral (Json.trim "\t68719476741 ".toList) 68719476741 :=
    Json.isNumeral_iff.mpr (by decide)
  have large : Json.IsNumeral (Json.trim "18446744073709551616".toList) 18446744073709551616 :=
    Json.isNumeral_iff.mpr (by decide)
  have minus : '-' ∈ "-0".toList := by decide
  have five : Word.ofUInt64 (UInt64.ofNat 68719476741) = 5 := by decide
  refine ⟨⟨by decide, numeral, ?_⟩, ⟨minus, rfl, rfl, ?_⟩, ⟨by decide, large, ?_⟩⟩
  · rw [words.reads _ _ (by decide) numeral, five]
  · exact (access .lock).refuses_other _ _ minus rfl rfl
  · exact registers.refuses_large _ _ (by decide) large

end ControlWords
