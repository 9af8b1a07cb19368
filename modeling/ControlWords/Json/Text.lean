/-
**JSON strings as UTF-16 code units.**

A JSON string may name any code unit by an escape, also one half of a surrogate pair without the
other. Such a string denotes no sequence of characters, so a string is kept as its code units:

* `Text.ofString` gives the units of a sequence of characters;
* `Text.toString?` gives the characters back, and nothing if a surrogate stands unpaired.

A sequence of characters is found again in its units, since a character below the surrogates or
above them is one unit and every other character is a pair of them:

* `chars?_ofChar_append`: the units of one character are read as that character;
* `toString?_ofString`: the units of a string are read as that string.
-/

namespace ControlWords.Json

/-- A string as UTF-16 code units, in which surrogates may stand unpaired. -/
abbrev Text := List UInt16

namespace Text

/-- Whether a unit is the first half of a surrogate pair. -/
def isHigh (unit : UInt16) : Bool :=
  0xD800 ≤ unit && unit < 0xDC00

/-- Whether a unit is the second half of a surrogate pair. -/
def isLow (unit : UInt16) : Bool :=
  0xDC00 ≤ unit && unit < 0xE000

/-- The character of a surrogate pair. -/
def ofPair (high low : UInt16) : Char :=
  Char.ofNat (0x10000 + (high.toNat - 0xD800) * 0x400 + (low.toNat - 0xDC00))

/-- The units of a character: one, or a surrogate pair beyond the first 65536 characters. -/
def ofChar (character : Char) : Text :=
  let point := character.toNat
  if point < 0x10000 then
    [UInt16.ofNat point]
  else
    [UInt16.ofNat (0xD800 + (point - 0x10000) / 0x400),
      UInt16.ofNat (0xDC00 + (point - 0x10000) % 0x400)]

/-- The units of characters, in order. -/
def ofChars (characters : List Char) : Text :=
  characters.flatMap ofChar

/-- The units of a string. -/
def ofString (source : String) : Text :=
  ofChars source.toList

/-- The characters of a text, if every surrogate in it is paired. -/
def chars? : Text → Option (List Char)
  | [] => some []
  | unit :: rest =>
    if isHigh unit then
      match rest with
      | low :: rest => if isLow low then (ofPair unit low :: ·) <$> chars? rest else none
      | [] => none
    else if isLow unit then
      none
    else
      (Char.ofNat unit.toNat :: ·) <$> chars? rest

/-- The string of a text, if every surrogate in it is paired. -/
def toString? (text : Text) : Option String :=
  String.ofList <$> chars? text

theorem toNat_ofNat_of_lt {value : Nat} (small : value < 0x10000) :
    (UInt16.ofNat value).toNat = value :=
  UInt16.toNat_ofNat_of_lt' small

/-! ### Surrogates -/

theorem isHigh_ofNat {value : Nat} (small : value < 0x10000) :
    isHigh (UInt16.ofNat value) = decide (0xD800 ≤ value ∧ value < 0xDC00) := by
  rw [isHigh, ← Bool.decide_and, decide_eq_decide, UInt16.le_iff_toNat_le, UInt16.lt_iff_toNat_lt,
    toNat_ofNat_of_lt small]
  rfl

theorem isLow_ofNat {value : Nat} (small : value < 0x10000) :
    isLow (UInt16.ofNat value) = decide (0xDC00 ≤ value ∧ value < 0xE000) := by
  rw [isLow, ← Bool.decide_and, decide_eq_decide, UInt16.le_iff_toNat_le, UInt16.lt_iff_toNat_lt,
    toNat_ofNat_of_lt small]
  rfl

/-- A unit that is no surrogate is read as the character of its number. -/
theorem chars?_cons_single {value : Nat} (small : value < 0x10000)
    (single : value < 0xD800 ∨ 0xE000 ≤ value) (rest : Text) :
    chars? (UInt16.ofNat value :: rest) = (Char.ofNat value :: ·) <$> chars? rest := by
  have notHigh : ¬ (0xD800 ≤ value ∧ value < 0xDC00) := by omega
  have notLow : ¬ (0xDC00 ≤ value ∧ value < 0xE000) := by omega
  rw [chars?.eq_def]
  simp only [isHigh_ofNat small, isLow_ofNat small, decide_eq_false notHigh,
    decide_eq_false notLow, Bool.false_eq_true, if_false, toNat_ofNat_of_lt small]

/-- The two units of a number of twenty bits are read as the character that many places above the
first 65536. -/
theorem chars?_cons_pair {value : Nat} (small : value < 0x100000) (rest : Text) :
    chars? (UInt16.ofNat (0xD800 + value / 0x400) ::
        UInt16.ofNat (0xDC00 + value % 0x400) :: rest) =
      (Char.ofNat (0x10000 + value) :: ·) <$> chars? rest := by
  have highSmall : 0xD800 + value / 0x400 < 0x10000 := by omega
  have lowSmall : 0xDC00 + value % 0x400 < 0x10000 := by omega
  have high : 0xD800 ≤ 0xD800 + value / 0x400 ∧ 0xD800 + value / 0x400 < 0xDC00 := by omega
  have low : 0xDC00 ≤ 0xDC00 + value % 0x400 ∧ 0xDC00 + value % 0x400 < 0xE000 := by omega
  have joined : 0x10000 + (0xD800 + value / 0x400 - 0xD800) * 0x400 +
      (0xDC00 + value % 0x400 - 0xDC00) = 0x10000 + value := by omega
  rw [chars?.eq_def]
  simp only [isHigh_ofNat highSmall, isLow_ofNat lowSmall, decide_eq_true high, decide_eq_true low,
    if_true, ofPair, toNat_ofNat_of_lt highSmall, toNat_ofNat_of_lt lowSmall, joined]

/-! ### Characters and strings -/

/-- **The units of a character are read as that character.** -/
theorem chars?_ofChar_append (character : Char) (rest : Text) :
    chars? (ofChar character ++ rest) = (character :: ·) <$> chars? rest := by
  have valid : character.toNat < 0xD800 ∨ 0xDFFF < character.toNat ∧ character.toNat < 0x110000 :=
    character.valid
  have same : Char.ofNat character.toNat = character := Char.ofNat_toNat character
  unfold ofChar
  dsimp only
  split
  · rename_i small
    exact (chars?_cons_single small (by omega) rest).trans (by rw [same])
  · rename_i large
    have place : 0x10000 + (character.toNat - 0x10000) = character.toNat := by omega
    have pair := chars?_cons_pair (show character.toNat - 0x10000 < 0x100000 by omega) rest
    rw [place, same] at pair
    exact pair

theorem chars?_ofChars (characters : List Char) :
    chars? (ofChars characters) = some characters := by
  induction characters with
  | nil => rfl
  | cons character rest ih =>
    rw [ofChars, List.flatMap_cons, chars?_ofChar_append, ← ofChars, ih]
    rfl

/-- **The units of a string are read as that string.** -/
theorem toString?_ofString (source : String) : toString? (ofString source) = some source := by
  rw [toString?, ofString, chars?_ofChars, Option.map_eq_map, Option.map_some, String.ofList_toList]

end Text

end ControlWords.Json
