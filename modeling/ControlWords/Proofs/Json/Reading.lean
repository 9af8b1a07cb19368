/-
**Reading goes through the constructors.**

A text of a type whose values are narrower than the numbers in their text is read in two steps: the
numbers are found in the text at their full width, and a constructor makes the value of them.

* `ReadThrough`: reading a type, as a text of its own or within another, is finding something there
  and building a value of it;
* `Word.readThrough`, `DesignatorRegister.readThrough` and `Access.readThrough`: words, registers,
  locks and keys are built of the 64-bit number that the text holds;
* `Gate.readThrough`: a gate is built of the words of five such numbers;
* `ReferenceViolation.readThrough` and its like: a record is built of its arguments.
-/

import ControlWords.Gate.Basic
import ControlWords.Interrupt.Basic

namespace ControlWords

/-- Reading a type is finding something, if it is there, and building a value of the type of it. -/
structure ReadThrough {α β : Type} [JsonCodec α] (find : Json → Option β) (build : β → α) :
    Prop where
  /-- A value within the text of another type is read so. -/
  decode? : ∀ json : Json, JsonCodec.decode? json = (find json).map build
  /-- A whole text is read so. -/
  read? : ∀ text : String, Json.read? text = ((Json.parse? text).bind find).map build

namespace ReadThrough

variable {α β : Type} [JsonCodec α] {find : Json → Option β} {build : β → α}

/-- A text is read as the value that it holds. -/
theorem of_decode? (decoded : ∀ json, JsonCodec.decode? json = (find json).map build) :
    ReadThrough find build := by
  refine ⟨decoded, fun text => ?_⟩
  unfold Json.read?
  rw [Option.map_bind]
  exact congrArg _ (funext decoded)

/-- A record is read from the fields of its names. -/
theorem of_fields {names : List String} {make : List Json → Option α}
    {collect : List Json → Option β}
    (decoded : ∀ json, JsonCodec.decode? json = (json.fields? names).bind make)
    (found : ∀ json, find json = (json.fields? names).bind collect)
    (made : ∀ fields, make fields = (collect fields).map build) : ReadThrough find build := by
  refine of_decode? fun json => ?_
  rw [decoded, found, Option.map_bind]
  exact congrArg _ (funext made)

end ReadThrough

/-! ### Numbers -/

/-- The 64-bit number that a value is. -/
def Json.number? (json : Json) : Option UInt64 :=
  JsonCodec.decode? json

theorem Word.readThrough : ReadThrough Json.number? ofUInt64 :=
  .of_decode? fun _ => rfl

theorem DesignatorRegister.readThrough : ReadThrough Json.number? ofComposite :=
  .of_decode? fun _ => rfl

theorem Access.readThrough (role : AccessRole) :
    ReadThrough Json.number? (ofComposite : UInt64 → Access role) :=
  .of_decode? fun _ => rfl

/-! ### Gates -/

/-- The five 64-bit numbers of an array. -/
def Gate.numbers? : Json → Option (Vector UInt64 5)
  | .array [first, second, third, fourth, fifth] => do
    return #v[← first.number?, ← second.number?, ← third.number?, ← fourth.number?,
      ← fifth.number?]
  | _ => none

/-- The gate of the words of five numbers. -/
def Gate.ofNumbers (numbers : Vector UInt64 5) : Gate :=
  ofWords (numbers.map Word.ofUInt64)

theorem Gate.ofNumbers_literal (first second third fourth fifth : UInt64) :
    ofNumbers #v[first, second, third, fourth, fifth] =
      ofFiveWords (Word.ofUInt64 first) (Word.ofUInt64 second) (Word.ofUInt64 third)
        (Word.ofUInt64 fourth) (Word.ofUInt64 fifth) := by
  simp [ofNumbers, ofFiveWords]

theorem Word.decode?_eq (json : Json) :
    (JsonCodec.decode? json : Option Word) = json.number?.map ofUInt64 :=
  rfl

/-- Cutting down each word where it is read is cutting down all five after the last is read. -/
theorem Gate.readThrough : ReadThrough numbers? ofNumbers := by
  refine .of_decode? fun json => ?_
  match json with
  | .array [first, second, third, fourth, fifth] =>
    show (JsonCodec.decode? first).bind _ = _
    simp only [numbers?, Word.decode?_eq, Option.bind_eq_bind, Option.bind_map, Option.map_bind,
      Function.comp_def, Option.pure_def, Option.map_some, ofNumbers_literal]
  | .scalar _ | .object _ | .array [] | .array [_] | .array [_, _] | .array [_, _, _]
  | .array [_, _, _, _] | .array (_ :: _ :: _ :: _ :: _ :: _ :: _) => rfl

/-! ### Records -/

/-- The arguments of a reference violation, at the widths at which they are written. -/
def ReferenceViolation.arguments? (json : Json) : Option (UInt8 × Bool) := do
  let [entryType, fetch] ← json.fields? ["entry_type", "fetch_operation"] | none
  return (← JsonCodec.decode? entryType, ← fetch.bool?)

theorem ReferenceViolation.readThrough :
    ReadThrough arguments? fun (entryType, fetch) => ofArguments entryType fetch := by
  refine .of_fields (fun _ => rfl) (fun _ => rfl) fun fields => ?_
  match fields with
  | [entryType, fetch] =>
    simp only [Option.bind_eq_bind, Option.map_bind, Function.comp_def, Option.pure_def,
      Option.map_some]
  | [] | [_] | _ :: _ :: _ :: _ => rfl

/-- The arguments of an addressing exception, at the widths at which they are written. -/
def AddressingException.arguments? (json : Json) : Option (UInt8 × UInt8 × UInt16) := do
  let [statusField, level, index] ← json.fields?
    ["short_status_field", "source_bank_level", "source_bank_descriptor_index"] | none
  return (← JsonCodec.decode? statusField, ← JsonCodec.decode? level, ← JsonCodec.decode? index)

theorem AddressingException.readThrough :
    ReadThrough arguments? fun (statusField, level, index) =>
      ofArguments statusField level index := by
  refine .of_fields (fun _ => rfl) (fun _ => rfl) fun fields => ?_
  match fields with
  | [statusField, level, index] =>
    simp only [Option.bind_eq_bind, Option.map_bind, Function.comp_def, Option.pure_def,
      Option.map_some]
  | [] | [_] | [_, _] | _ :: _ :: _ :: _ :: _ => rfl

/-- The arguments of a stack fault, at the widths at which they are written. -/
def StackFault.arguments? (json : Json) : Option (UInt8 × UInt8 × UInt32) := do
  let [statusField, register, address] ← json.fields?
    ["short_status_field", "base_register", "relative_address"] | none
  return (← JsonCodec.decode? statusField, ← JsonCodec.decode? register,
    ← JsonCodec.decode? address)

theorem StackFault.readThrough :
    ReadThrough arguments? fun (statusField, register, address) =>
      ofArguments statusField register address := by
  refine .of_fields (fun _ => rfl) (fun _ => rfl) fun fields => ?_
  match fields with
  | [statusField, register, address] =>
    simp only [Option.bind_eq_bind, Option.map_bind, Function.comp_def, Option.pure_def,
      Option.map_some]
  | [] | [_] | [_, _] | _ :: _ :: _ :: _ :: _ => rfl

end ControlWords
