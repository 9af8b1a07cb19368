/-
**Serialized forms are read back.**

A value in which every number is a plain natural is *canonical*; all serialized forms are. The
compact text of a canonical value is a layout of that value without blanks, and so holds it:

* `spelledAs_flatMap_spellUnit`: a string is spelled by the spellings of its code units;
* `spelledAs_spelling`: a canonical token is spelled as it is written;
* `parse?_compact`: compact text holds its value.

A codec is *lawful* when its values are encoded canonically and decoded as they were encoded. The
text that is written for a value of a lawful codec holds that value and no other:

* `LawfulCodec.read?_write`: what is written is read;
* `LawfulCodec.write_injective`: two values with one text are one value;
* `LawfulCodec.roundTrips`: a text that is accepted, whatever its form, is rewritten to a text that
  denotes the same value and stays as it is.

Whatever is written as its number and made of its number again is lawful (`LawfulCodec.ofNatural`,
`LawfulCodec.ofUInt64`), words among it. A gate is written as its words and made of its words again,
so its law is that encoding loses nothing.
-/

import ControlWords.Proofs.Gate.RoundTrip
import ControlWords.Proofs.Json.Layout

namespace ControlWords

namespace Json

/-! ### Strings -/

theorem hexValue?_digitChar : ∀ digit < 16, hexValue? (Nat.digitChar digit) = some digit := by
  decide

theorem hexUnit?_hexDigits (unit : UInt16) :
    hexUnit? (Nat.digitChar (unit.toNat / 0x1000)) (Nat.digitChar (unit.toNat / 0x100 % 0x10))
      (Nat.digitChar (unit.toNat / 0x10 % 0x10)) (Nat.digitChar (unit.toNat % 0x10)) =
        some unit := by
  have small : unit.toNat < 2 ^ 16 := unit.toNat_lt
  have joined : unit.toNat / 0x1000 * 0x1000 + unit.toNat / 0x100 % 0x10 * 0x100 +
      unit.toNat / 0x10 % 0x10 * 0x10 + unit.toNat % 0x10 = unit.toNat := by omega
  rw [hexUnit?, hexValue?_digitChar _ (by omega), hexValue?_digitChar _ (by omega),
    hexValue?_digitChar _ (by omega), hexValue?_digitChar _ (by omega)]
  show some (UInt16.ofNat (unit.toNat / 0x1000 * 0x1000 + unit.toNat / 0x100 % 0x10 * 0x100 +
    unit.toNat / 0x10 % 0x10 * 0x10 + unit.toNat % 0x10)) = some unit
  rw [joined, UInt16.ofNat_toNat]

/-- A printable unit stands for itself. -/
theorem spelledAs_plain {unit : UInt16} (plain : isPlain unit = true) {text : Text}
    {body : List Char} (rest : Text.SpelledAs text body) :
    Text.SpelledAs (unit :: text) (Char.ofNat unit.toNat :: body) := by
  simp only [isPlain, Bool.and_eq_true, decide_eq_true_eq, bne_iff_ne, ne_eq,
    UInt16.le_iff_toNat_le, UInt16.lt_iff_toNat_lt, ← UInt16.toNat_inj] at plain
  obtain ⟨⟨⟨printable, ascii⟩, noQuote⟩, noBackslash⟩ := plain
  change 0x20 ≤ unit.toNat at printable
  change unit.toNat < 0x7F at ascii
  have valid : unit.toNat.isValidChar := Or.inl (by omega)
  have point : (Char.ofNat unit.toNat).toNat = unit.toNat := by
    rw [Char.ofNat, dif_pos valid]
    rfl
  have apart : ∀ other : Char, unit.toNat ≠ other.toNat → Char.ofNat unit.toNat ≠ other :=
    fun other differs same => differs (by rw [← same, point])
  have above : ¬ Char.ofNat unit.toNat < ' ' := fun below => by
    have less : (Char.ofNat unit.toNat).toNat < ' '.toNat := below
    rw [point] at less
    exact absurd printable (Nat.not_le.mpr less)
  have own : Text.ofChar (Char.ofNat unit.toNat) = [unit] := by
    rw [Text.ofChar, point, if_pos (by omega), UInt16.ofNat_toNat]
  have spelled := Text.SpelledAs.plain (apart '"' noQuote) (apart '\\' noBackslash) above rest
  rwa [own] at spelled

theorem spelledAs_spellUnit (unit : UInt16) {text : Text} {body : List Char}
    (rest : Text.SpelledAs text body) :
    Text.SpelledAs (unit :: text) (spellUnit unit ++ body) := by
  unfold spellUnit
  split
  · rename_i plain
    exact spelledAs_plain plain rest
  · split
    · rename_i _ escaped
      rcases escaped with rfl | rfl
      · exact .escaped rfl rest
      · exact .escaped rfl rest
    · exact .coded (hexUnit?_hexDigits unit) rest

/-- **A string is spelled by the spellings of its code units.** -/
theorem spelledAs_flatMap_spellUnit (units : Text) :
    Text.SpelledAs units (units.flatMap spellUnit) := by
  induction units with
  | nil => exact .nil
  | cons unit units ih => exact spelledAs_spellUnit unit ih

/-! ### Tokens -/

/-- A canonical token is no number with a spelling of its own. -/
def Token.Canonical : Token → Prop
  | .scalar (.number _) => False
  | _ => True

/-- A canonical value has canonical tokens only. -/
def Canonical (json : Json) : Prop :=
  ∀ token ∈ json.tokens, token.Canonical

/-- **A canonical token is spelled as it is written.** -/
theorem spelledAs_spelling {token : Token} (canonical : token.Canonical) :
    token.SpelledAs token.spelling := by
  match token with
  | .openArray => exact .mark rfl
  | .closeArray => exact .mark rfl
  | .openObject => exact .mark rfl
  | .closeObject => exact .mark rfl
  | .colon => exact .mark rfl
  | .comma => exact .mark rfl
  | .scalar .null => exact .name rfl
  | .scalar (.bool true) => exact .name rfl
  | .scalar (.bool false) => exact .name rfl
  | .scalar (.natural _) => exact spelledAs_natural_iff.mpr rfl
  | .scalar (.number _) => exact canonical.elim
  | .scalar (.text units) => exact .text (spelledAs_flatMap_spellUnit units)

theorem layout_flatMap_spelling {tokens : List Token}
    (canonical : ∀ token ∈ tokens, token.Canonical) :
    Layout tokens (tokens.flatMap Token.spelling) := by
  induction tokens with
  | nil => exact .nil
  | cons token tokens ih =>
    rw [List.forall_mem_cons] at canonical
    exact .token (spelledAs_spelling canonical.1) (ih canonical.2)

/-! ### Values -/

theorem laidOut_compact {json : Json} (canonical : json.Canonical) : LaidOut json json.compact := by
  rw [LaidOut, compact, String.toList_ofList]
  exact layout_flatMap_spelling canonical

/-- **Compact text holds its value.** -/
theorem parse?_compact {json : Json} (canonical : json.Canonical) :
    parse? json.compact = some json :=
  parse?_eq_some_iff.mpr (laidOut_compact canonical)

end Json

/-! ### Lawful codecs -/

/-- Types whose serialized form is canonical and is decoded as the value that it encodes. -/
class LawfulCodec (α : Type) [JsonCodec α] : Prop where
  canonical_encode : ∀ value : α, (JsonCodec.encode value).Canonical
  decode?_encode : ∀ value : α, JsonCodec.decode? (JsonCodec.encode value) = some value

namespace LawfulCodec

attribute [simp] canonical_encode decode?_encode

variable {α : Type} [JsonCodec α] [LawfulCodec α]

/-- **What is written is read.** -/
theorem read?_write (value : α) : Json.read? (Json.write value) = some value := by
  rw [Json.read?, Json.write, Json.parse?_compact (canonical_encode value)]
  exact decode?_encode value

/-- **Values with one text are equal.** -/
theorem write_injective {first second : α} (same : Json.write first = Json.write second) :
    first = second := by
  have read : some first = some second := by
    rw [← read?_write first, ← read?_write second, same]
  exact Option.some.inj read

end LawfulCodec

/-! ### Reading and writing again -/

/-- The text of the value that a text is read as. -/
def Json.rewrite? (α : Type) [JsonCodec α] (text : String) : Option String :=
  (read? text : Option α).map write

/-- What it means that the text of a type loses nothing. -/
structure RoundTrips (α : Type) [JsonCodec α] : Prop where
  /-- The text of a value is accepted and read as exactly this value. -/
  read?_write : ∀ value : α, Json.read? (Json.write value) = some value
  /-- A text that is accepted is rewritten to a text that is read as the same value and that is
  rewritten to itself. -/
  rewrite? : ∀ text : String, (Json.read? text : Option α).isSome →
    ∃ result, Json.rewrite? α text = some result ∧
      (Json.read? result : Option α) = Json.read? text ∧ Json.rewrite? α result = some result

/-- **The text of a lawful type loses nothing.** -/
theorem LawfulCodec.roundTrips (α : Type) [JsonCodec α] [LawfulCodec α] : RoundTrips α where
  read?_write := read?_write
  rewrite? text accepted := by
    obtain ⟨value, read⟩ := Option.isSome_iff_exists.mp accepted
    refine ⟨Json.write value, ?_, ?_, ?_⟩
    · rw [Json.rewrite?, read, Option.map_some]
    · rw [read, read?_write]
    · rw [Json.rewrite?, read?_write, Option.map_some]

/-! ### Canonical values -/

/-- A value without parts is canonical as its one token is. -/
theorem Json.canonical_scalar {value : Scalar} (canonical : (Token.scalar value).Canonical) :
    (Json.scalar value).Canonical :=
  List.forall_mem_singleton.mpr canonical

theorem Json.canonical_natural (value : Nat) : (Json.natural value).Canonical :=
  canonical_scalar trivial

@[simp] theorem Json.canonical_bool (value : Bool) : (Json.bool value).Canonical :=
  canonical_scalar trivial

theorem Json.canonical_string (value : String) : (Json.string value).Canonical :=
  canonical_scalar trivial

/-- An array of canonical items is canonical. -/
theorem Json.canonical_array {items : List Json} (each : ∀ item ∈ items, item.Canonical) :
    (Json.array items).Canonical := by
  have later : ∀ items : List Json, (∀ item ∈ items, item.Canonical) →
      ∀ token ∈ itemTokens items, token.Canonical := fun items each => by
    induction items with
    | nil =>
      intro token member
      rw [List.mem_singleton.mp member]
      trivial
    | cons item items ih =>
      rw [List.forall_mem_cons] at each
      simp only [itemTokens, List.forall_mem_cons, List.forall_mem_append]
      exact ⟨trivial, each.1, ih each.2⟩
  cases items with
  | nil =>
    intro token member
    simp only [tokens, List.mem_cons, List.not_mem_nil, or_false] at member
    rcases member with rfl | rfl <;> trivial
  | cons item items =>
    rw [List.forall_mem_cons] at each
    simp only [Canonical, tokens, List.forall_mem_cons, List.forall_mem_append]
    exact ⟨trivial, each.1, later items each.2⟩

/-! ### Numbers and truth values -/

@[simp] theorem Json.bool?_bool (value : Bool) : (Json.bool value).bool? = some value :=
  rfl

theorem Json.naturalBelow?_natural {bound value : Nat} (below : value < bound) :
    (Json.natural value).naturalBelow? bound = some value :=
  if_pos below

/-- A type whose values are written as their numbers, below the bound up to which numbers are read,
and made of their numbers again. -/
theorem LawfulCodec.ofNatural {α : Type} [JsonCodec α] {number : α → Nat} {build : Nat → α}
    {bound : Nat} (written : ∀ value, JsonCodec.encode value = Json.natural (number value))
    (read : ∀ json, JsonCodec.decode? json = build <$> json.naturalBelow? bound)
    (below : ∀ value, number value < bound) (inverse : ∀ value, build (number value) = value) :
    LawfulCodec α where
  canonical_encode value := by
    rw [written]
    exact Json.canonical_natural _
  decode?_encode value := by
    rw [read, written, Json.naturalBelow?_natural (below value), Option.map_eq_map, Option.map_some,
      inverse]

instance : LawfulCodec UInt8 :=
  .ofNatural (fun _ => rfl) (fun _ => rfl) UInt8.toNat_lt fun _ => UInt8.ofNat_toNat

instance : LawfulCodec UInt16 :=
  .ofNatural (fun _ => rfl) (fun _ => rfl) UInt16.toNat_lt fun _ => UInt16.ofNat_toNat

instance : LawfulCodec UInt32 :=
  .ofNatural (fun _ => rfl) (fun _ => rfl) UInt32.toNat_lt fun _ => UInt32.ofNat_toNat

instance : LawfulCodec UInt64 :=
  .ofNatural (fun _ => rfl) (fun _ => rfl) UInt64.toNat_lt fun _ => UInt64.ofNat_toNat

instance : LawfulCodec Bool where
  canonical_encode := Json.canonical_bool
  decode?_encode := Json.bool?_bool

/-- A type whose values are written as 64-bit numbers and made of these again. -/
theorem LawfulCodec.ofUInt64 {α : Type} [JsonCodec α] {number : α → UInt64} {build : UInt64 → α}
    (written : ∀ value : α, JsonCodec.encode value = JsonCodec.encode (number value))
    (read : ∀ json, JsonCodec.decode? json = build <$> JsonCodec.decode? json)
    (inverse : ∀ value, build (number value) = value) : LawfulCodec α where
  canonical_encode value := by
    rw [written]
    exact canonical_encode _
  decode?_encode value := by
    rw [read, written, decode?_encode, Option.map_eq_map, Option.map_some, inverse]

/-! ### Words and gates -/

instance : LawfulCodec Word :=
  .ofUInt64 (fun word => congrArg Json.natural word.toNat_toUInt64.symm) (fun _ => rfl)
    Word.ofUInt64_toUInt64

theorem Gate.encode_eq (gate : Gate) :
    JsonCodec.encode gate = Json.array (gate.toWords.toList.map JsonCodec.encode) :=
  rfl

/-- An array of five encoded words is decoded as the gate of the words. -/
theorem Gate.decode?_array (first second third fourth fifth : Word) :
    JsonCodec.decode? (Json.array ([first, second, third, fourth, fifth].map JsonCodec.encode)) =
      some (Gate.ofWords #v[first, second, third, fourth, fifth]) := by
  show (JsonCodec.decode? (JsonCodec.encode first)).bind _ = _
  simp only [LawfulCodec.decode?_encode, Option.bind_eq_bind, Option.bind_some]
  rfl

theorem GateWords.eq_literal (words : GateWords) :
    words = #v[words[0], words[1], words[2], words[3], words[4]] := by
  apply Vector.ext
  intro index inside
  match index, inside with
  | 0, _ | 1, _ | 2, _ | 3, _ | 4, _ => rfl

instance : LawfulCodec Gate where
  canonical_encode gate := by
    refine Json.canonical_array fun item member => ?_
    obtain ⟨word, _, rfl⟩ := List.mem_map.mp member
    exact LawfulCodec.canonical_encode word
  decode?_encode gate := by
    have literal := gate.toWords.eq_literal
    have listed : gate.toWords.toList = [gate.toWords[0], gate.toWords[1], gate.toWords[2],
        gate.toWords[3], gate.toWords[4]] := congrArg Vector.toList literal
    rw [Gate.encode_eq, listed, Gate.decode?_array, ← literal, Gate.ofWords_toWords]

end ControlWords
