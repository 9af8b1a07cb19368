/-
**What is accepted as a case.**

An interrupt and an event are read from an object with one member, whose key names the kind and
whose value holds the contents of that kind. A class has no contents: it is read from its name
alone, and from an object with that name over null.

* `variant?_eq_some_iff`: an object of one member whose key denotes a string is a case;
* `Interrupt.decode?_eq_some_iff` and `TraceEvent.decode?_eq_some_iff`: each kind has its own name
  and is read from its own contents;
* `InterruptClass.decode?_eq_some_iff`: the two forms of a class;
* `cases_read_by_name`: these are all the texts that are accepted.
-/

import ControlWords.Interrupt.Lemmas
import ControlWords.Proofs.Json.Fields

namespace ControlWords

/-! ### Cases and names -/

theorem Json.variant?_eq_some_iff {json body : Json} {name : String} :
    json.variant? = some (name, body) ↔
      ∃ key, json = .object [(key, body)] ∧ key.toString? = some name := by
  constructor
  · intro read
    unfold variant? at read
    split at read
    · rename_i key _
      simp only [Option.bind_eq_bind, Option.bind_eq_some_iff, Option.pure_def, Option.some.injEq,
        Prod.mk.injEq] at read
      obtain ⟨_, decoded, rfl, rfl⟩ := read
      exact ⟨key, rfl, decoded⟩
    · cases read
  · rintro ⟨key, rfl, decoded⟩
    rw [variant?, decoded]
    rfl

/-- What is built of a case is built of its name and its contents. -/
theorem Json.variant?_bind_eq_some_iff {α : Type} {json : Json} {build : String × Json → Option α}
    {value : α} :
    json.variant?.bind build = some value ↔ ∃ key name body,
      json = .object [(key, body)] ∧ key.toString? = some name ∧
        build (name, body) = some value := by
  simp only [Option.bind_eq_some_iff, Prod.exists, variant?_eq_some_iff]
  constructor
  · rintro ⟨name, body, ⟨key, rfl, named⟩, built⟩
    exact ⟨key, name, body, rfl, named, built⟩
  · rintro ⟨key, name, body, rfl, named, built⟩
    exact ⟨name, body, ⟨key, rfl, named⟩, built⟩

theorem Json.string?_eq_some_iff {json : Json} {content : String} :
    json.string? = some content ↔
      ∃ text, json = .scalar (.text text) ∧ text.toString? = some content := by
  constructor
  · intro read
    unfold string? at read
    split at read
    · exact ⟨_, rfl, read⟩
    · cases read
  · rintro ⟨text, rfl, decoded⟩
    exact decoded

theorem Json.isNull_iff {json : Json} : json.isNull ↔ json = .scalar .null := by
  constructor
  · intro null
    unfold isNull at null
    split at null
    · rfl
    · cases null
  · rintro rfl
    rfl

theorem InterruptClass.ofName?_eq_some_iff {name : String} {interruptClass : InterruptClass} :
    ofName? name = some interruptClass ↔ name = interruptClass.name := by
  constructor
  · intro found
    have same := List.find?_some found
    exact (of_decide_eq_true same).symm
  · rintro rfl
    exact ofName?_name interruptClass

/-! ### Interrupts -/

/-- The interrupt that a case with a name and contents stands for. -/
inductive Interrupt.IsCase (name : String) (body : Json) : Interrupt → Prop
  | referenceViolation {record : ReferenceViolation} (named : name = "ReferenceViolation")
      (read : JsonCodec.decode? body = some record) : IsCase name body (.referenceViolation record)
  | addressingException {record : AddressingException} (named : name = "AddressingException")
      (read : JsonCodec.decode? body = some record) : IsCase name body (.addressingException record)
  | stackFault {record : StackFault} (named : name = "RcsGenericStackUnderOverflow")
      (read : JsonCodec.decode? body = some record) : IsCase name body (.stackFault record)
  | invalidInstruction {record : InvalidInstruction} (named : name = "InvalidInstruction")
      (read : JsonCodec.decode? body = some record) : IsCase name body (.invalidInstruction record)

theorem Interrupt.isCase_iff {name : String} {body : Json} {interrupt : Interrupt} :
    IsCase name body interrupt ↔ ∃ interruptClass,
      InterruptClass.ofName? name = some interruptClass ∧
        decodeRecord? body interruptClass = some interrupt := by
  constructor
  · rintro (⟨rfl, read⟩ | ⟨rfl, read⟩ | ⟨rfl, read⟩ | ⟨rfl, read⟩)
    · exact ⟨_, InterruptClass.ofName?_name .referenceViolation,
        Option.map_eq_some_iff.mpr ⟨_, read, rfl⟩⟩
    · exact ⟨_, InterruptClass.ofName?_name .addressingException,
        Option.map_eq_some_iff.mpr ⟨_, read, rfl⟩⟩
    · exact ⟨_, InterruptClass.ofName?_name .stackFault,
        Option.map_eq_some_iff.mpr ⟨_, read, rfl⟩⟩
    · exact ⟨_, InterruptClass.ofName?_name .invalidInstruction,
        Option.map_eq_some_iff.mpr ⟨_, read, rfl⟩⟩
  · rintro ⟨interruptClass, found, decoded⟩
    have named := InterruptClass.ofName?_eq_some_iff.mp found
    unfold decodeRecord? at decoded
    split at decoded
    · obtain ⟨record, read, rfl⟩ := Option.map_eq_some_iff.mp decoded
      exact .referenceViolation named read
    · obtain ⟨record, read, rfl⟩ := Option.map_eq_some_iff.mp decoded
      exact .addressingException named read
    · obtain ⟨record, read, rfl⟩ := Option.map_eq_some_iff.mp decoded
      exact .stackFault named read
    · obtain ⟨record, read, rfl⟩ := Option.map_eq_some_iff.mp decoded
      exact .invalidInstruction named read
    · cases decoded

/-- **An interrupt is read from a case of its kind.** -/
theorem Interrupt.decode?_eq_some_iff {json : Json} {interrupt : Interrupt} :
    JsonCodec.decode? json = some interrupt ↔ ∃ key name body,
      json = .object [(key, body)] ∧ key.toString? = some name ∧ IsCase name body interrupt := by
  simp only [isCase_iff, ← Option.bind_eq_some_iff]
  exact Json.variant?_bind_eq_some_iff

/-! ### Events -/

/-- The event that a case with a name and contents stands for. -/
inductive TraceEvent.IsCase (name : String) (body : Json) : TraceEvent → Prop
  | gateDecoded {value : Json} {target : TargetAddress} (named : name = "GateDecoded")
      (field : Json.Gives [("target", value)] body)
      (read : JsonCodec.decode? value = some target) : IsCase name body (.gateDecoded target)
  | gateRejected {value : Json} {length : UInt64} (named : name = "GateRejected")
      (field : Json.Gives [("buffer_len", value)] body)
      (read : JsonCodec.decode? value = some length) : IsCase name body (.gateRejected length)
  | interruptRecognized {first second third fourth : Json} {interruptClass : InterruptClass}
      {statusField : UInt8} {statusWord0 statusWord1 : Word} (named : name = "InterruptRecognized")
      (fields : Json.Gives [("class", first), ("short_status_field", second),
        ("status_word0", third), ("status_word1", fourth)] body)
      (readClass : JsonCodec.decode? first = some interruptClass)
      (readField : JsonCodec.decode? second = some statusField)
      (readWord0 : JsonCodec.decode? third = some statusWord0)
      (readWord1 : JsonCodec.decode? fourth = some statusWord1) :
      IsCase name body (.interruptRecognized interruptClass statusField statusWord0 statusWord1)

/-- The form of the contents of each event tells which event they stand for. -/
theorem TraceEvent.isCase_iff {name : String} {body : Json} {event : TraceEvent} :
    IsCase name body event ↔ decodeBody? body name = some event := by
  constructor
  · rintro (⟨rfl, field, read⟩ | ⟨rfl, field, read⟩ |
      ⟨rfl, fields, readClass, readField, readWord0, readWord1⟩)
    · exact gateDecoded_recordForm.single_eq_some_iff.mpr ⟨_, _, field, read, rfl⟩
    · exact gateRejected_recordForm.single_eq_some_iff.mpr ⟨_, _, field, read, rfl⟩
    · refine interruptRecognized_recordForm.decode?_eq_some_iff.mpr
        ⟨_, Json.fields?_eq_some_iff_gives.mpr fields, ?_⟩
      refine Json.build?_cons_eq_some_iff.mpr ⟨_, readClass, ?_⟩
      refine Json.build?_cons_eq_some_iff.mpr ⟨_, readField, ?_⟩
      refine Json.build?_cons_eq_some_iff.mpr ⟨_, readWord0, ?_⟩
      exact Json.build?_cons_eq_some_iff.mpr ⟨_, readWord1, rfl⟩
  · intro decoded
    unfold decodeBody? at decoded
    split at decoded
    · rename_i named
      obtain ⟨_, target, field, read, rfl⟩ :=
        gateDecoded_recordForm.single_eq_some_iff.mp decoded
      exact .gateDecoded named field read
    · split at decoded
      · rename_i named
        obtain ⟨_, length, field, read, rfl⟩ :=
          gateRejected_recordForm.single_eq_some_iff.mp decoded
        exact .gateRejected named field read
      · split at decoded
        · rename_i named
          obtain ⟨items, fields, built⟩ :=
            interruptRecognized_recordForm.decode?_eq_some_iff.mp decoded
          obtain ⟨first, second, third, fourth, rfl⟩ :=
            List.length_eq_four.mp (Json.length_of_fields?_eq_some fields)
          obtain ⟨interruptClass, readClass, built⟩ := Json.build?_cons_eq_some_iff.mp built
          obtain ⟨statusField, readField, built⟩ := Json.build?_cons_eq_some_iff.mp built
          obtain ⟨statusWord0, readWord0, built⟩ := Json.build?_cons_eq_some_iff.mp built
          obtain ⟨statusWord1, readWord1, rest⟩ := Json.build?_cons_eq_some_iff.mp built
          cases rest
          exact .interruptRecognized named (Json.fields?_eq_some_iff_gives.mp fields) readClass
            readField readWord0 readWord1
        · cases decoded

/-- **An event is read from a case of its kind.** -/
theorem TraceEvent.decode?_eq_some_iff {json : Json} {event : TraceEvent} :
    JsonCodec.decode? json = some event ↔ ∃ key name body,
      json = .object [(key, body)] ∧ key.toString? = some name ∧ IsCase name body event := by
  simp only [isCase_iff]
  exact Json.variant?_bind_eq_some_iff

/-! ### Classes -/

/-- **A class is read from its name**, alone or over null. -/
theorem InterruptClass.decode?_eq_some_iff {json : Json} {interruptClass : InterruptClass} :
    JsonCodec.decode? json = some interruptClass ↔
      (∃ text, json = .scalar (.text text) ∧ text.toString? = some interruptClass.name) ∨
      ∃ key, json = .object [(key, .scalar .null)] ∧ key.toString? = some interruptClass.name := by
  cases json with
  | scalar value =>
    have unfolded : (JsonCodec.decode? (.scalar value) : Option InterruptClass) =
        (Json.scalar value).string?.bind ofName? := rfl
    simp only [unfolded, Option.bind_eq_some_iff, ofName?_eq_some_iff, exists_eq_right,
      Json.string?_eq_some_iff, reduceCtorEq, false_and, exists_false, or_false]
  | array elements =>
    have refused : (JsonCodec.decode? (.array elements) : Option InterruptClass) = none := rfl
    simp only [refused, reduceCtorEq, false_and, exists_false, or_false]
  | object members =>
    have unfolded : (JsonCodec.decode? (.object members) : Option InterruptClass) =
        (Json.object members).variant?.bind fun read =>
          if read.2.isNull then ofName? read.1 else none := rfl
    simp only [unfolded, Json.variant?_bind_eq_some_iff, Option.ite_none_right_eq_some,
      ofName?_eq_some_iff, Json.isNull_iff, reduceCtorEq, false_and, exists_false, false_or]
    constructor
    · rintro ⟨key, name, body, equal, named, rfl, rfl⟩
      exact ⟨key, equal, named⟩
    · rintro ⟨key, equal, named⟩
      exact ⟨key, _, _, equal, named, rfl, rfl⟩

/-! ### All cases -/

/-- The texts of a type whose values are decoded from cases. -/
theorem Json.read?_eq_some_iff_of_case {α : Type} [JsonCodec α] {IsCase : String → Json → α → Prop}
    (decoded : ∀ {json value}, JsonCodec.decode? json = some value ↔ ∃ key name body,
      json = .object [(key, body)] ∧ key.toString? = some name ∧ IsCase name body value)
    {text : String} {value : α} :
    read? text = some value ↔ ∃ key name body, LaidOut (.object [(key, body)]) text ∧
      key.toString? = some name ∧ IsCase name body value := by
  rw [read?_eq_some_iff]
  constructor
  · rintro ⟨json, layout, read⟩
    obtain ⟨key, name, body, rfl, named, isCase⟩ := decoded.mp read
    exact ⟨key, name, body, layout, named, isCase⟩
  · rintro ⟨key, name, body, layout, named, isCase⟩
    exact ⟨_, layout, decoded.mpr ⟨key, name, body, rfl, named, isCase⟩⟩

/-- **Interrupts, events and classes are read by name.** A text is accepted as an interrupt or as an
event exactly when it holds an object with a single member, whose key denotes the name of a kind and
whose value is read as the contents of that kind; these make the result. A text is accepted as a
class exactly when it holds the name of the class, or an object with that name over null. -/
theorem Json.cases_read_by_name (text : String) :
    (∀ interrupt : Interrupt, read? text = some interrupt ↔ ∃ key name body,
      LaidOut (.object [(key, body)]) text ∧ key.toString? = some name ∧
        Interrupt.IsCase name body interrupt) ∧
    (∀ event : TraceEvent, read? text = some event ↔ ∃ key name body,
      LaidOut (.object [(key, body)]) text ∧ key.toString? = some name ∧
        TraceEvent.IsCase name body event) ∧
    (∀ interruptClass : InterruptClass, read? text = some interruptClass ↔
      (∃ units, LaidOut (.scalar (.text units)) text ∧
        units.toString? = some interruptClass.name) ∨
      ∃ key, LaidOut (.object [(key, .scalar .null)]) text ∧
        key.toString? = some interruptClass.name) := by
  refine ⟨fun _ => read?_eq_some_iff_of_case Interrupt.decode?_eq_some_iff,
    fun _ => read?_eq_some_iff_of_case TraceEvent.decode?_eq_some_iff, fun interruptClass => ?_⟩
  rw [read?_eq_some_iff]
  constructor
  · rintro ⟨json, layout, decoded⟩
    rcases InterruptClass.decode?_eq_some_iff.mp decoded with
      ⟨units, rfl, named⟩ | ⟨key, rfl, named⟩
    · exact .inl ⟨units, layout, named⟩
    · exact .inr ⟨key, layout, named⟩
  · rintro (⟨units, layout, named⟩ | ⟨key, layout, named⟩)
    · exact ⟨_, layout, InterruptClass.decode?_eq_some_iff.mpr (.inl ⟨units, rfl, named⟩)⟩
    · exact ⟨_, layout, InterruptClass.decode?_eq_some_iff.mpr (.inr ⟨key, rfl, named⟩)⟩

end ControlWords
