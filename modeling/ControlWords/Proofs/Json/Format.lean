/-
**The format loses nothing.**

A record is written as an object with one member for each field. As long as its field names are
distinct, each field is found under its name:

* `gives_record`: a record with distinct names gives its fields;
* `fields?_record`: the fields of a record are found in order;
* `variant?_variant`: a case is read as its name and contents;
* `canonical_record` and `canonical_variant`: both forms are canonical when their parts are;
* `LawfulCodec.ofRecord` and `LawfulCodec.ofVariant`: a type that is written in one of these forms,
  and made of its parts again, is lawful.

Every type of the library has a lawful codec. Numbers of all kinds are cut down to their width when
they are read and a record is built of its arguments again, so the law of a type says that what its
values show is enough to build them:

* words, locks, keys and registers are found again in their numbers;
* permissions, target addresses, configurations and the four interrupt records are found again in
  the fields of an object;
* interrupts and events are found again in their names and contents.

`Json.format_lossless` collects the types: what is written for a value is read as that value, and
reading a text and writing it again, once, brings it into a form that stays.
-/

import Mathlib.Data.List.Nodup
import ControlWords.Interrupt.Lemmas
import ControlWords.Proofs.Access.Composites
import ControlWords.Proofs.Json.Fields
import ControlWords.Proofs.Json.RoundTrip

namespace ControlWords

namespace Json

/-! ### Records and cases are found -/

theorem namedMembers?_ofString (members : List (String × Json)) :
    namedMembers? (members.map fun (name, value) => (Text.ofString name, value)) =
      some members := by
  induction members with
  | nil => rfl
  | cons head tail ih =>
    obtain ⟨name, value⟩ := head
    rw [namedMembers?] at ih ⊢
    rw [List.map_cons, List.mapM_cons, ih]
    simp only [Text.toString?_ofString]
    rfl

/-- A record gives its fields. -/
theorem gives_record {fields : List (String × Json)} (distinct : (fields.map Prod.fst).Nodup) :
    Gives fields (record fields) :=
  .object (namedMembers?_ofString fields) fun _ member =>
    ⟨List.count_eq_one_of_mem distinct (List.mem_map_of_mem member), member⟩

/-- **The fields of a record are found under their names**, in order. -/
theorem fields?_record {names : List String} {members : List (String × Json)}
    (named : members.map Prod.fst = names) (distinct : names.Nodup) :
    (record members).fields? names = some (members.map Prod.snd) := by
  subst named
  exact fields?_eq_some_iff_gives.mpr (gives_record distinct)

/-- **A case is read as its name and contents.** -/
theorem variant?_variant (name : String) (body : Json) :
    (variant name body).variant? = some (name, body) := by
  show (Text.toString? (Text.ofString name)).bind (fun name => some (name, body)) = _
  rw [Text.toString?_ofString, Option.bind_some]

/-! ### Records and cases are canonical -/

/-- An object of canonical values is canonical. -/
theorem canonical_object {members : List (Text × Json)}
    (each : ∀ member ∈ members, member.2.Canonical) : (object members).Canonical := by
  have later : ∀ members : List (Text × Json), (∀ member ∈ members, member.2.Canonical) →
      ∀ token ∈ memberTokens members, token.Canonical := fun members each => by
    induction members with
    | nil =>
      intro token member
      rw [List.mem_singleton.mp member]
      trivial
    | cons head tail ih =>
      rw [List.forall_mem_cons] at each
      simp only [memberTokens, List.forall_mem_cons, List.forall_mem_append]
      exact ⟨trivial, trivial, trivial, each.1, ih each.2⟩
  cases members with
  | nil =>
    intro token member
    simp only [tokens, List.mem_cons, List.not_mem_nil, or_false] at member
    rcases member with rfl | rfl <;> trivial
  | cons head tail =>
    rw [List.forall_mem_cons] at each
    simp only [Canonical, tokens, List.forall_mem_cons, List.forall_mem_append]
    exact ⟨trivial, trivial, trivial, each.1, later tail each.2⟩

theorem canonical_record {members : List (String × Json)}
    (each : ∀ member ∈ members, member.2.Canonical) : (record members).Canonical := by
  refine canonical_object fun member inside => ?_
  obtain ⟨named, listed, rfl⟩ := List.mem_map.mp inside
  exact each named listed

theorem canonical_variant (name : String) {body : Json} (canonical : body.Canonical) :
    (variant name body).Canonical :=
  canonical_record (List.forall_mem_singleton.mpr canonical)

end Json

/-! ### Lawful records and cases -/

namespace LawfulCodec

variable {α : Type} [JsonCodec α]

/-- A type whose values are written as records with the names of their fields, and made of the
fields that are found under these names. -/
theorem ofRecord {names : List String} {members : α → List (String × Json)}
    {build : List Json → Option α}
    (written : ∀ value, JsonCodec.encode value = Json.record (members value))
    (read : ∀ json, JsonCodec.decode? json = (json.fields? names).bind build)
    (named : ∀ value, (members value).map Prod.fst = names) (distinct : names.Nodup)
    (canonical : ∀ value, ∀ member ∈ members value, member.2.Canonical)
    (built : ∀ value, build ((members value).map Prod.snd) = some value) : LawfulCodec α where
  canonical_encode value := by
    rw [written]
    exact Json.canonical_record (canonical value)
  decode?_encode value := by
    rw [read, written, Json.fields?_record (named value) distinct, Option.bind_some, built]

/-- A type whose values are written as cases, and made of the name and the contents of a case. -/
theorem ofVariant {name : α → String} {body : α → Json} {build : String × Json → Option α}
    (written : ∀ value, JsonCodec.encode value = Json.variant (name value) (body value))
    (read : ∀ json, JsonCodec.decode? json = json.variant?.bind build)
    (canonical : ∀ value, (body value).Canonical)
    (built : ∀ value, build (name value, body value) = some value) : LawfulCodec α where
  canonical_encode value := by
    rw [written]
    exact Json.canonical_variant _ (canonical value)
  decode?_encode value := by
    rw [read, written, Json.variant?_variant, Option.bind_some, built]

end LawfulCodec

/-! ### Access values and registers -/

instance (role : AccessRole) : LawfulCodec (Access role) :=
  .ofUInt64
    (fun access => congrArg Json.natural
      (access.toNat_composite.trans access.toNat_toUInt64.symm))
    (fun _ => rfl) Access.ofComposite_toUInt64

instance : LawfulCodec DesignatorRegister :=
  .ofUInt64 (fun register => congrArg Json.natural register.word.toNat_toUInt64.symm)
    (fun _ => rfl) fun register => congrArg DesignatorRegister.mk register.word.ofUInt64_toUInt64

/-! ### Records

Of a record it is to be shown that its members are canonical, and that it is made again of what
stands in them.
-/

instance : LawfulCodec Permissions := by
  refine .ofRecord (fun _ => rfl) (fun _ => rfl) (fun _ => rfl) (by decide) ?_ ?_
  · intro permissions
    simp
  · intro permissions
    simp

instance : LawfulCodec TargetAddress := by
  refine .ofRecord (fun _ => rfl) (fun _ => rfl) (fun _ => rfl) (by decide) ?_ ?_
  · intro address
    simp
  · intro address
    simp

instance : LawfulCodec ReferenceViolation := by
  refine .ofRecord (fun _ => rfl) (fun _ => rfl) (fun _ => rfl) (by decide) ?_ ?_
  · intro record
    simp
  · intro record
    simp [record.ofArguments_arguments]

instance : LawfulCodec AddressingException := by
  refine .ofRecord (fun _ => rfl) (fun _ => rfl) (fun _ => rfl) (by decide) ?_ ?_
  · intro record
    simp
  · intro record
    simp [record.ofArguments_arguments]

instance : LawfulCodec StackFault := by
  refine .ofRecord (fun _ => rfl) (fun _ => rfl) (fun _ => rfl) (by decide) ?_ ?_
  · intro record
    simp
  · intro record
    simp [record.ofArguments_arguments]

instance : LawfulCodec InvalidInstruction := by
  refine .ofRecord (fun _ => rfl) (fun _ => rfl) (fun _ => rfl) (by decide) ?_ ?_
  · intro record
    simp
  · intro record
    simp [InvalidInstruction.ofArguments]

instance : LawfulCodec Config := by
  refine .ofRecord (fun _ => rfl) (fun _ => rfl) (fun _ => rfl) (by decide) ?_ ?_
  · intro config
    simp
  · intro config
    simp

/-! ### Names and cases -/

instance : LawfulCodec InterruptClass where
  canonical_encode interruptClass := Json.canonical_string interruptClass.name
  decode?_encode interruptClass := by
    show (Json.Text.toString? (.ofString interruptClass.name)).bind InterruptClass.ofName? = _
    rw [Json.Text.toString?_ofString, Option.bind_some, InterruptClass.ofName?_name]

theorem Interrupt.decodeRecord?_encodeRecord (interrupt : Interrupt) :
    decodeRecord? interrupt.encodeRecord interrupt.interruptClass = some interrupt := by
  cases interrupt <;>
    simp only [interruptClass, encodeRecord, decodeRecord?, LawfulCodec.decode?_encode,
      Option.map_eq_map, Option.map_some]

theorem Interrupt.canonical_encodeRecord (interrupt : Interrupt) :
    interrupt.encodeRecord.Canonical := by
  cases interrupt <;> simp only [encodeRecord, LawfulCodec.canonical_encode]

instance : LawfulCodec Interrupt := by
  refine .ofVariant (fun _ => rfl) (fun _ => rfl) Interrupt.canonical_encodeRecord ?_
  intro interrupt
  simp [interrupt.decodeRecord?_encodeRecord]

theorem TraceEvent.decodeBody?_encodeBody (event : TraceEvent) :
    decodeBody? event.encodeBody event.name = some event := by
  cases event with
  | gateDecoded target =>
    have found : (gateDecoded target).encodeBody.fields? ["target"] =
        some [JsonCodec.encode target] := Json.fields?_record rfl (by decide)
    simp [decodeBody?, name, decodeGateDecoded?, found]
  | gateRejected length =>
    have found : (gateRejected length).encodeBody.fields? ["buffer_len"] =
        some [JsonCodec.encode length] := Json.fields?_record rfl (by decide)
    simp [decodeBody?, name, decodeGateRejected?, found]
  | interruptRecognized interruptClass statusField statusWord0 statusWord1 =>
    have found : (interruptRecognized interruptClass statusField statusWord0
          statusWord1).encodeBody.fields?
        ["class", "short_status_field", "status_word0", "status_word1"] =
        some [JsonCodec.encode interruptClass, JsonCodec.encode statusField,
          JsonCodec.encode statusWord0, JsonCodec.encode statusWord1] :=
      Json.fields?_record rfl (by decide)
    simp [decodeBody?, name, decodeInterruptRecognized?, found]

instance : LawfulCodec TraceEvent := by
  refine .ofVariant (fun _ => rfl) (fun _ => rfl) ?_ ?_
  · intro event
    cases event <;> exact Json.canonical_record (by simp)
  · intro event
    exact event.decodeBody?_encodeBody

/-! ### The whole format -/

/-- **The serialized format loses nothing.** For every one of the serialized types, each of its
values is read back exactly from its text, and each text that is accepted is rewritten to one that
denotes the same value and is reproduced by any further reading and writing. -/
theorem Json.format_lossless :
    RoundTrips Word ∧ RoundTrips Permissions ∧ RoundTrips AccessLock ∧ RoundTrips AccessKey ∧
    RoundTrips DesignatorRegister ∧ RoundTrips TargetAddress ∧ RoundTrips Gate ∧
    RoundTrips InterruptClass ∧ RoundTrips ReferenceViolation ∧ RoundTrips AddressingException ∧
    RoundTrips StackFault ∧ RoundTrips InvalidInstruction ∧ RoundTrips Interrupt ∧
    RoundTrips Config ∧ RoundTrips TraceEvent := by
  refine ⟨?_, ?_, ?_, ?_, ?_, ?_, ?_, ?_, ?_, ?_, ?_, ?_, ?_, ?_, ?_⟩
  all_goals exact LawfulCodec.roundTrips _

end ControlWords
