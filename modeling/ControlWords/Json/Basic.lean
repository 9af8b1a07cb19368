/-
**JSON values and their tokens.**

A value is a scalar, an array or an object. Nothing is lost in it: an object keeps its members in
order, repeated keys included, and a number that is not a plain natural keeps its spelling. The
tokens of a value are its one token sequence; where blanks stand between tokens does not matter.

The compact text of a value is the spellings of its tokens, one after the other and without blanks.
Strings are written in ASCII: printable units stand for themselves, a quote and a backslash are
escaped, and every other unit is named by its four hexadecimal digits.
-/

import ControlWords.Json.Text

namespace ControlWords

/-- A value without parts. -/
inductive Json.Scalar where
  | null
  | bool (value : Bool)
  /-- A number written with digits only. -/
  | natural (value : Nat)
  /-- A number with a sign, a fraction or an exponent, as it is spelled. -/
  | number (spelling : List Char)
  | text (units : Json.Text)
deriving DecidableEq, Repr

/-- A JSON value. -/
inductive Json where
  | scalar (value : Json.Scalar)
  | array (items : List Json)
  /-- A sequence of keys with their values. -/
  | object (members : List (Json.Text × Json))

namespace Json

/-- A token of JSON text. -/
inductive Token where
  /-- A value without parts, or a key. -/
  | scalar (value : Scalar)
  | openArray
  | closeArray
  | openObject
  | closeObject
  /-- The mark between a key and its value. -/
  | colon
  /-- The mark between two items or members. -/
  | comma
deriving DecidableEq, Repr

mutual

/-- The tokens of a value. -/
def tokens : Json → List Token
  | .scalar value => [.scalar value]
  | .array [] => [.openArray, .closeArray]
  | .array (item :: rest) => .openArray :: (tokens item ++ itemTokens rest)
  | .object [] => [.openObject, .closeObject]
  | .object ((key, value) :: rest) =>
    .openObject :: .scalar (.text key) :: .colon :: (tokens value ++ memberTokens rest)
termination_by structural json => json

/-- The tokens from the end of an item to the end of its array. -/
def itemTokens : List Json → List Token
  | [] => [.closeArray]
  | item :: rest => .comma :: (tokens item ++ itemTokens rest)
termination_by structural items => items

/-- The tokens from the end of a member to the end of its object. -/
def memberTokens : List (Text × Json) → List Token
  | [] => [.closeObject]
  | (key, value) :: rest =>
    .comma :: .scalar (.text key) :: .colon :: (tokens value ++ memberTokens rest)
termination_by structural members => members

end

/-- The value of a natural number. -/
def natural (value : Nat) : Json :=
  .scalar (.natural value)

/-- The value of a truth value. -/
def bool (value : Bool) : Json :=
  .scalar (.bool value)

/-- The value of a string. -/
def string (value : String) : Json :=
  .scalar (.text (Text.ofString value))

/-- An object with the given keys, in order. -/
def record (members : List (String × Json)) : Json :=
  .object (members.map fun (name, value) => (Text.ofString name, value))

/-! ### Compact text -/

/-- The lowercase hexadecimal digits of a code unit, four of them. -/
def hexDigits (unit : UInt16) : List Char :=
  [Nat.digitChar (unit.toNat / 0x1000), Nat.digitChar (unit.toNat / 0x100 % 0x10),
    Nat.digitChar (unit.toNat / 0x10 % 0x10), Nat.digitChar (unit.toNat % 0x10)]

/-- Whether a unit stands for itself within quotes. -/
def isPlain (unit : UInt16) : Bool :=
  0x20 ≤ unit && unit < 0x7F && unit != 0x22 && unit != 0x5C

/-- A unit as it is written within quotes. -/
def spellUnit (unit : UInt16) : List Char :=
  if isPlain unit then
    [Char.ofNat unit.toNat]
  else if unit = 0x22 ∨ unit = 0x5C then
    ['\\', Char.ofNat unit.toNat]
  else
    '\\' :: 'u' :: hexDigits unit

/-- A scalar as it is written. -/
def Scalar.spelling : Scalar → List Char
  | .null => ['n', 'u', 'l', 'l']
  | .bool true => ['t', 'r', 'u', 'e']
  | .bool false => ['f', 'a', 'l', 's', 'e']
  | .natural value => Nat.toDigits 10 value
  | .number spelling => spelling
  | .text units => '"' :: (units.flatMap spellUnit ++ ['"'])

/-- A token as it is written. -/
def Token.spelling : Token → List Char
  | .scalar value => value.spelling
  | .openArray => ['[']
  | .closeArray => [']']
  | .openObject => ['{']
  | .closeObject => ['}']
  | .colon => [':']
  | .comma => [',']

/-- The compact text of a value. -/
def compact (json : Json) : String :=
  String.ofList (json.tokens.flatMap Token.spelling)

end Json

end ControlWords
