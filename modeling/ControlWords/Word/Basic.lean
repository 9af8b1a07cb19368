/-
**The 36-bit storage word.**

Bits are numbered as on the machine: bit 0 is the most significant and bit 35 the least. A word is
built from any 64-bit value by dropping the bits above the low 36, so building never fails. Words
compare as numbers.

* `Word.ofUInt64`, `Word.toUInt64`: from and to the 64-bit value;
* `Word.isSet`: a bit by its machine number, false from bit 36 on;
* `Word.octal`: the twelve octal digits; `Word.bits`: the thirty-six binary ones.

Words and status fields are shown to people in base eight, most significant digit first:
`Octal.digits` gives any count of digits, `Octal.numeral` as many as the number needs, and
`Octal.value` the number that digits denote. A word is written as its number. Reading takes any
64-bit number and keeps its low 36 bits, so no word read from text is out of range.
-/

import ControlWords.Json.Codec

namespace ControlWords

namespace Octal

/-- The last `count` octal digits of a number, with leading zeros. -/
def digits : (count value : Nat) → List Char
  | 0, _ => []
  | count + 1, value => digits count (value / 8) ++ [Nat.digitChar (value % 8)]

/-- The octal numeral of a number, without leading zeros. -/
def numeral (value : Nat) : String :=
  String.ofList (Nat.toDigits 8 value)

/-- The number that a list of octal digits denotes. -/
def value (numerals : List Char) : Nat :=
  numerals.foldl (fun total numeral => 8 * total + (numeral.toNat - '0'.toNat)) 0

@[simp] theorem length_digits (count value : Nat) : (digits count value).length = count := by
  induction count generalizing value with
  | zero => rfl
  | succ count ih => simp [digits, ih]

end Octal

/-- A storage word of 36 bits. -/
abbrev Word := BitVec 36

namespace Word

/-- The number of bits of a word. -/
def bitCount : Nat := 36

/-- The word of the low 36 bits of a value. -/
def ofUInt64 (value : UInt64) : Word :=
  value.toBitVec.setWidth 36

/-- The word of a value that has fewer bits than a word. -/
def ofUInt32 (value : UInt32) : Word :=
  value.toBitVec.setWidth 36

/-- The value of the same number. -/
def toUInt64 (word : Word) : UInt64 :=
  UInt64.ofBitVec (word.setWidth 64)

/-- A 64-bit value stands for the word of its low bits. -/
instance : Coe UInt64 Word := ⟨ofUInt64⟩

/-- A 32-bit value stands for the word of the same number. -/
instance : Coe UInt32 Word := ⟨ofUInt32⟩

/-- The value in which exactly the bits of a word are set. -/
def mask : UInt64 := 0o777777777777

/-- Whether a bit is set, bit 0 being the most significant; no bit from 36 on is. -/
def isSet (word : Word) (bit : Nat) : Bool :=
  word.getMsbD bit

/-- The bits of a word in machine order, each as a binary digit. -/
def bits (word : Word) : String :=
  String.ofList ((List.range bitCount).map fun bit => if word.isSet bit then '1' else '0')

/-- The twelve octal digits of a word. -/
def octal (word : Word) : String :=
  String.ofList (Octal.digits 12 word.toNat)

end Word

/-! ### The serialized form -/

instance : JsonCodec Word where
  encode word := .natural word.toNat
  decode? json := Word.ofUInt64 <$> JsonCodec.decode? json

end ControlWords
