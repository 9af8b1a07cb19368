/-
**The numbers of a gate's text.**

The text of a gate is an array of five numbers. Each is any number of 64 bits, of which the gate
takes the low 36, and what is written again are the five words without the bits outside the field
map:

* `exists_inArray_iff`: the arrays of five 64-bit numbers, item by item;
* `numbers?_eq_some_iff`: a gate finds five numbers in the array of these numbers and nowhere else;
* `encode_ofNumbers`: the array that is written for the gate of five numbers;
* `reads_five_numbers`: the texts that are accepted as gates, what they are read as and what is
  written again.
-/

import Mathlib.Data.Set.List
import ControlWords.Proofs.Gate.Decoding
import ControlWords.Proofs.Json.Integers

namespace ControlWords

namespace Gate

open GateField (coverage)

/-! ### Arrays of five numbers -/

/-- The array of five numbers. -/
def inArray (numbers : Vector UInt64 5) : Json :=
  .array (numbers.toList.map fun number => .natural number.toNat)

/-- **The arrays of five numbers** are those of five items that are numbers of 64 bits. -/
theorem exists_inArray_iff {items : List Json} :
    (∃ numbers, .array items = inArray numbers) ↔
      items.length = 5 ∧ ∀ item ∈ items, ∃ value < 2 ^ 64, item = .natural value := by
  constructor
  · rintro ⟨numbers, same⟩
    cases same
    refine ⟨by rw [List.length_map, Vector.length_toList], fun item member => ?_⟩
    obtain ⟨number, _, rfl⟩ := List.mem_map.mp member
    exact ⟨number.toNat, number.toNat_lt, rfl⟩
  · rintro ⟨five, each⟩
    have listed :
        items ∈ Set.range (List.map fun number : UInt64 => Json.natural number.toNat) := by
      rw [Set.range_list_map]
      intro item member
      obtain ⟨value, below, rfl⟩ := each item member
      exact ⟨UInt64.ofNat value, congrArg Json.natural (UInt64.toNat_ofNat_of_lt' below)⟩
    obtain ⟨numbers, rfl⟩ := listed
    rw [List.length_map] at five
    exact ⟨⟨numbers.toArray, five⟩, rfl⟩

/-- **A gate finds five numbers in their array** and nowhere else. -/
theorem numbers?_eq_some_iff {json : Json} {numbers : Vector UInt64 5} :
    numbers? json = some numbers ↔ json = inArray numbers := by
  constructor
  · intro found
    unfold numbers? at found
    split at found
    · simp only [Option.bind_eq_bind, Option.bind_eq_some_iff, Json.number?_eq_some_iff,
        Option.pure_def, Option.some.injEq] at found
      obtain ⟨_, rfl, _, rfl, _, rfl, _, rfl, _, rfl, rfl⟩ := found
      rfl
    · cases found
  · rintro rfl
    have each (number : UInt64) : (Json.natural number.toNat).number? = some number :=
      Json.number?_eq_some_iff.mpr rfl
    obtain ⟨⟨items⟩, five⟩ := numbers
    match items, five with
    | [_, _, _, _, _], _ =>
      simp only [inArray, Vector.toList_mk, List.map_cons, List.map_nil, numbers?, each,
        Option.bind_eq_bind, Option.bind_some, Option.pure_def]

/-! ### Reading and writing -/

/-- **A text is read as a gate** exactly when it holds five numbers, and then as their gate. -/
theorem read?_eq_some_iff {text : String} {gate : Gate} :
    Json.read? text = some gate ↔
      ∃ numbers, Json.LaidOut (inArray numbers) text ∧ ofNumbers numbers = gate :=
  readThrough.read?_eq_some_iff numbers?_eq_some_iff

theorem toNat_get_toWords_ofNumbers (numbers : Vector UInt64 5) (slot : Fin 5) :
    ((ofNumbers numbers).toWords.get slot).toNat =
      (numbers.get slot).toNat % 2 ^ 36 &&& (coverage slot).toNat := by
  have cut : (numbers.map Word.ofUInt64).get slot = Word.ofUInt64 (numbers.get slot) :=
    Vector.getElem_map _ _
  rw [ofNumbers, get_toWords_ofWords, BitVec.toNat_and, cut, Word.toNat_ofUInt64]

/-- **The array that is written for the gate of five numbers** holds the low 36 bits of each, of
which the bits outside the field map are clear. -/
theorem encode_ofNumbers (numbers : Vector UInt64 5) :
    JsonCodec.encode (ofNumbers numbers) = Json.array (List.ofFn fun slot =>
      .natural ((numbers.get slot).toNat % 2 ^ 36 &&& (coverage slot).toNat)) := by
  simp only [← toNat_get_toWords_ofNumbers]
  show Json.array ((ofNumbers numbers).toWords.toList.map fun word => .natural word.toNat) = _
  have listed : (ofNumbers numbers).toWords.toList = List.ofFn (ofNumbers numbers).toWords.get := by
    refine List.ext_getElem (by simp) fun index _ _ => ?_
    rw [List.getElem_ofFn]
    rfl
  rw [listed, List.map_ofFn]
  rfl

/-- **A gate is read from five numbers and written as five numbers.** A text is accepted exactly
when it holds an array of five items, each a number of 64 bits. It is then read as the gate of the
words that are the low 36 bits of the numbers, which is the gate decoded from every buffer that
begins with these words. What is written for the gate holds the low 36 bits of each number, of which
the bits outside the field map are clear. -/
theorem reads_five_numbers :
    (∀ text, (∃ gate : Gate, Json.read? text = some gate) ↔ ∃ items,
      Json.LaidOut (.array items) text ∧ items.length = 5 ∧
        ∀ item ∈ items, ∃ value < 2 ^ 64, item = .natural value) ∧
    (∀ text (gate : Gate), Json.read? text = some gate ↔ ∃ numbers,
      Json.LaidOut (inArray numbers) text ∧ ofWords (numbers.map Word.ofUInt64) = gate) ∧
    (∀ (numbers : Vector UInt64 5) (rest : List Word),
      decode ((numbers.map Word.ofUInt64).toList ++ rest) =
        .ok (ofWords (numbers.map Word.ofUInt64))) ∧
    (∀ numbers : Vector UInt64 5, Json.write (ofWords (numbers.map Word.ofUInt64)) =
      (Json.array (List.ofFn fun slot =>
        .natural ((numbers.get slot).toNat % 2 ^ 36 &&& (coverage slot).toNat))).compact) := by
  refine ⟨fun text => ?_, fun _ _ => read?_eq_some_iff, fun numbers rest => ?_, fun numbers =>
    congrArg Json.compact (encode_ofNumbers numbers)⟩
  · simp only [read?_eq_some_iff, ← exists_inArray_iff]
    constructor
    · rintro ⟨_, numbers, layout, _⟩
      exact ⟨_, layout, numbers, rfl⟩
    · rintro ⟨items, layout, numbers, same⟩
      rw [same] at layout
      exact ⟨ofNumbers numbers, numbers, layout, rfl⟩
  · exact decode_of_take_eq (List.take_left' Vector.length_toList)

end Gate

end ControlWords
