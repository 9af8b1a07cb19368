/-
**Reading and writing values as JSON text.**

A type with a serialized form gives an `encode` to a JSON value and a `decode?` from one.
`Json.write` puts the encoded value into compact text and `Json.read?` reads a text that holds that
one value and nothing else. The forms that every type builds on:

* an integer is written with digits only and is read only if it is in range of its type;
* a record is written as an object, and read from an object that has each of its keys once, whatever
  other keys there are, or from an array of just its fields in order;
* a case with contents is written and read as an object with one member, named for the case.
-/

import ControlWords.Json.Basic
import ControlWords.Json.Grammar
import ControlWords.Json.Lexer

namespace ControlWords

/-- Types that have a serialized form. -/
class JsonCodec (α : Type) where
  encode : α → Json
  decode? : Json → Option α

namespace Json

/-- The value that a text holds, if it holds exactly one. -/
def parse? (source : String) : Option Json := do
  let tokens ← tokens? source.toList
  ofTokens? tokens

/-- The value of a type that a text holds, if it holds one. -/
def read? {α : Type} [JsonCodec α] (source : String) : Option α := do
  let json ← parse? source
  JsonCodec.decode? json

/-- The compact text of a value of a type. -/
def write {α : Type} [JsonCodec α] (value : α) : String :=
  (JsonCodec.encode value).compact

/-! ### Records and cases -/

/-- The members of an object with their keys as strings, if every key is one. -/
def namedMembers? (members : List (Text × Json)) : Option (List (String × Json)) :=
  members.mapM fun (key, value) => do
    let name ← key.toString?
    return (name, value)

/-- The value of the only member of a name. -/
def onlyMember? (members : List (String × Json)) (name : String) : Option Json :=
  match members.filter (·.1 = name) with
  | [(_, value)] => some value
  | _ => none

/-- The fields of a record with the given names, in order. -/
def fields? (names : List String) : Json → Option (List Json)
  | .scalar _ => none
  | .array items => if items.length = names.length then some items else none
  | .object members => do
    let named ← namedMembers? members
    names.mapM (onlyMember? named)

/-- The name and the contents of a case. -/
def variant? : Json → Option (String × Json)
  | .object [(key, body)] => do
    let name ← key.toString?
    return (name, body)
  | _ => none

/-- A case with contents, as an object with one member. -/
def variant (name : String) (body : Json) : Json :=
  record [(name, body)]

/-! ### Numbers and truth values -/

/-- The natural number that a value is. -/
def natural? : Json → Option Nat
  | .scalar (.natural value) => some value
  | _ => none

/-- The natural number below a bound that a value is. -/
def naturalBelow? (bound : Nat) (json : Json) : Option Nat := do
  let value ← json.natural?
  if value < bound then some value else none

/-- The truth value that a value is. -/
def bool? : Json → Option Bool
  | .scalar (.bool value) => some value
  | _ => none

/-- Whether a value is null. -/
def isNull : Json → Bool
  | .scalar .null => true
  | _ => false

/-- The string that a value is, if every surrogate in it is paired. -/
def string? : Json → Option String
  | .scalar (.text units) => units.toString?
  | _ => none

end Json

instance : JsonCodec Bool where
  encode := Json.bool
  decode? := Json.bool?

instance : JsonCodec UInt8 where
  encode value := .natural value.toNat
  decode? json := UInt8.ofNat <$> json.naturalBelow? UInt8.size

instance : JsonCodec UInt16 where
  encode value := .natural value.toNat
  decode? json := UInt16.ofNat <$> json.naturalBelow? UInt16.size

instance : JsonCodec UInt32 where
  encode value := .natural value.toNat
  decode? json := UInt32.ofNat <$> json.naturalBelow? UInt32.size

instance : JsonCodec UInt64 where
  encode value := .natural value.toNat
  decode? json := UInt64.ofNat <$> json.naturalBelow? UInt64.size

end ControlWords
