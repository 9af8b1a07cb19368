/-
**What is accepted as a record.**

A record is read from an object under the names of its declared fields, or from an array in their
order. Keys are compared after their escapes are decoded, so a key that denotes no string makes its
object unreadable, whatever its name might be.

* `fields?_object_eq_some_iff`: the fields of an object are found when each name occurs just once;
* `fields?_eq_some_iff_gives`: so fields are found in the objects and in the array that give them;
* `fields?_object_perm` and `fields?_object_of_notMem`: neither the order of members nor members of
  other names matter;
* `build?`: the record that is built of the values of items, one for each declared field;
* `RecordForm`: what it means that just the declared fields are read, and what is built of them;
* `RecordForm.decode?_eq_some_iff`: so it tells for each value whether a record is read, and which;
* `records_read_by_declared_fields`: it holds of every record and of the contents of every event.
-/

import Mathlib.Data.List.Forall2
import Mathlib.Data.List.Perm.Basic
import ControlWords.Proofs.Json.Layout
import ControlWords.Trace

namespace ControlWords

namespace Json

/-! ### The members of an object -/

theorem mapM_eq_some_iff {α β : Type} {f : α → Option β} {items : List α} {results : List β} :
    items.mapM f = some results ↔
      List.Forall₂ (fun item result => f item = some result) items results := by
  induction items generalizing results with
  | nil => simp [eq_comm]
  | cons item items ih =>
    rw [List.mapM_cons]
    simp only [Option.bind_eq_bind, Option.bind_eq_some_iff, Option.pure_def, Option.some.injEq, ih]
    constructor
    · rintro ⟨first, found, others, rest, rfl⟩
      exact .cons found rest
    · rintro (_ | ⟨found, rest⟩)
      exact ⟨_, found, _, rest, rfl⟩

/-- Among keys, a name occurs exactly once, and it does so with the given value. -/
def OccursOnce (members : List (String × Json)) (name : String) (value : Json) : Prop :=
  (members.map Prod.fst).count name = 1 ∧ (name, value) ∈ members

theorem onlyMember?_eq_some_iff {members : List (String × Json)} {name : String} {value : Json} :
    onlyMember? members name = some value ↔ OccursOnce members name value := by
  have counted : (members.map Prod.fst).count name =
      (members.filter fun member => decide (member.1 = name)).length := by
    rw [List.count, List.countP_map, List.countP_eq_length_filter]
    rfl
  have found : (name, value) ∈ members ↔
      (name, value) ∈ members.filter fun member => decide (member.1 = name) := by
    rw [List.mem_filter]
    exact ⟨fun member => ⟨member, decide_eq_true rfl⟩, And.left⟩
  rw [OccursOnce, counted, found, onlyMember?]
  constructor
  · intro only
    split at only
    · rename_i key found single
      have member : (key, found) ∈ members.filter fun member => decide (member.1 = name) := by
        rw [single]
        exact List.mem_cons_self
      have same : key = name := of_decide_eq_true (List.mem_filter.mp member).2
      cases only
      rw [single, same]
      exact ⟨rfl, List.mem_cons_self⟩
    · cases only
  · rintro ⟨single, member⟩
    obtain ⟨⟨key, other⟩, only⟩ := List.length_eq_one_iff.mp single
    rw [only] at member ⊢
    cases List.mem_singleton.mp member
    rfl

theorem onlyMember?_perm {members others : List (String × Json)} (same : members.Perm others)
    (name : String) : onlyMember? others name = onlyMember? members name := by
  apply Option.ext
  intro value
  rw [onlyMember?_eq_some_iff, onlyMember?_eq_some_iff, OccursOnce, OccursOnce,
    (same.map Prod.fst).count_eq, same.mem_iff]

/-- A member of another name is not seen. -/
theorem onlyMember?_append_cons {before after : List (String × Json)} {name other : String}
    {value : Json} (differs : other ≠ name) :
    onlyMember? (before ++ (other, value) :: after) name = onlyMember? (before ++ after) name := by
  unfold onlyMember?
  rw [List.filter_append, List.filter_cons_of_neg (by simpa using differs), ← List.filter_append]

theorem mapM_onlyMember?_append_cons {before after : List (String × Json)} {other : String}
    {value : Json} {names : List String} (absent : other ∉ names) :
    names.mapM (onlyMember? (before ++ (other, value) :: after)) =
      names.mapM (onlyMember? (before ++ after)) := by
  induction names with
  | nil => rfl
  | cons name names ih =>
    rw [List.mem_cons, not_or] at absent
    rw [List.mapM_cons, List.mapM_cons, onlyMember?_append_cons absent.1, ih absent.2]

/-- Members in another order have their decoded keys in another order. -/
theorem exists_namedMembers?_perm {members others : List (Text × Json)}
    {named : List (String × Json)} (same : members.Perm others)
    (decoded : namedMembers? members = some named) :
    ∃ otherNamed, namedMembers? others = some otherNamed ∧ named.Perm otherNamed := by
  obtain ⟨otherNamed, found, permuted⟩ :=
    List.perm_comp_forall₂ same.symm (mapM_eq_some_iff.mp decoded)
  exact ⟨otherNamed, mapM_eq_some_iff.mpr found, permuted.symm⟩

/-! ### The fields of a record -/

/-- **The fields of an object are found when each name occurs exactly once among its keys.** -/
theorem fields?_object_eq_some_iff {names : List String} {members : List (Text × Json)}
    {values : List Json} :
    (object members).fields? names = some values ↔
      ∃ named, namedMembers? members = some named ∧
        List.Forall₂ (OccursOnce named) names values := by
  simp only [fields?, Option.bind_eq_bind, Option.bind_eq_some_iff, mapM_eq_some_iff,
    onlyMember?_eq_some_iff]

/-- The fields of an array are its items, if there are as many as names. -/
theorem fields?_array_eq_some_iff {names : List String} {items values : List Json} :
    (array items).fields? names = some values ↔ items = values ∧ items.length = names.length := by
  rw [fields?, Option.ite_none_right_eq_some, Option.some.injEq, And.comm]

/-- One value is found for each name. -/
theorem length_of_fields?_eq_some {names : List String} {json : Json} {values : List Json}
    (found : json.fields? names = some values) : values.length = names.length := by
  cases json with
  | scalar value => cases found
  | array items =>
    obtain ⟨rfl, same⟩ := fields?_array_eq_some_iff.mp found
    exact same
  | object members =>
    obtain ⟨_, -, once⟩ := fields?_object_eq_some_iff.mp found
    exact once.length_eq.symm

/-- The values that give fields: objects in which each name occurs exactly once, and with its value,
and the array of the values in order. -/
inductive Gives (fields : List (String × Json)) : Json → Prop
  | object {members : List (Text × Json)} {named : List (String × Json)}
      (decoded : namedMembers? members = some named)
      (each : ∀ field ∈ fields, OccursOnce named field.1 field.2) : Gives fields (.object members)
  | array : Gives fields (.array (fields.map Prod.snd))

/-- **Fields are found in the values that give them.** -/
theorem fields?_eq_some_iff_gives {fields : List (String × Json)} {json : Json} :
    json.fields? (fields.map Prod.fst) = some (fields.map Prod.snd) ↔ Gives fields json := by
  constructor
  · intro found
    cases json with
    | scalar value => cases found
    | array items =>
      obtain ⟨rfl, -⟩ := fields?_array_eq_some_iff.mp found
      exact .array
    | object members =>
      obtain ⟨named, decoded, once⟩ := fields?_object_eq_some_iff.mp found
      rw [List.forall₂_map_left_iff, List.forall₂_map_right_iff, List.forall₂_same] at once
      exact .object decoded once
  · intro gives
    cases gives with
    | object decoded each =>
      refine fields?_object_eq_some_iff.mpr ⟨_, decoded, ?_⟩
      rw [List.forall₂_map_left_iff, List.forall₂_map_right_iff, List.forall₂_same]
      exact each
    | array =>
      refine fields?_array_eq_some_iff.mpr ⟨rfl, ?_⟩
      rw [List.length_map, List.length_map]

/-- **The order of members does not matter.** -/
theorem fields?_object_perm {names : List String} {members others : List (Text × Json)}
    (same : members.Perm others) :
    (object others).fields? names = (object members).fields? names := by
  have carried : ∀ {first second : List (Text × Json)} {values : List Json},
      first.Perm second → (object first).fields? names = some values →
        (object second).fields? names = some values := by
    intro first second values permuted found
    obtain ⟨named, decoded, each⟩ := fields?_object_eq_some_iff.mp found
    obtain ⟨otherNamed, otherDecoded, keys⟩ := exists_namedMembers?_perm permuted decoded
    refine fields?_object_eq_some_iff.mpr ⟨otherNamed, otherDecoded, each.imp ?_⟩
    intro name value once
    rwa [← onlyMember?_eq_some_iff, onlyMember?_perm keys, onlyMember?_eq_some_iff]
  apply Option.ext
  intro values
  exact ⟨carried same.symm, carried same⟩

/-- **Members of other names do not matter**, whatever their values are. -/
theorem fields?_object_of_notMem {names : List String} {before after : List (Text × Json)}
    {key : Text} {name : String} {value : Json} (decoded : key.toString? = some name)
    (other : name ∉ names) :
    (object (before ++ (key, value) :: after)).fields? names =
      (object (before ++ after)).fields? names := by
  simp only [fields?, namedMembers?, List.mapM_append, List.mapM_cons, decoded, Option.bind_eq_bind,
    Option.bind_some, Option.pure_def, Option.bind_assoc, mapM_onlyMember?_append_cons other]

/-! ### Declared fields -/

/-- A declared field of a record: its name and the type of its values. -/
structure Field where
  name : String
  Value : Type
  [codec : JsonCodec Value]

attribute [instance] Field.codec

/-- The field of a name for values of a type. -/
def Field.of (α : Type) [JsonCodec α] (name : String) : Field where
  name
  Value := α

/-- A field accepts what is read as a value of its type. -/
def Field.Accepts (field : Field) (item : Json) : Prop :=
  (JsonCodec.decode? item : Option field.Value).isSome

/-- What makes a record of a value for each field, taken in the order of the fields. -/
def Builder (α : Type) : List Field → Type
  | [] => α
  | field :: fields => field.Value → Builder α fields

/-- The record that is built of the values of items, one for each field in order. -/
def build? {α : Type} : (fields : List Field) → Builder α fields → List Json → Option α
  | [], record, [] => some record
  | field :: fields, build, item :: items => do
    let value : field.Value ← JsonCodec.decode? item
    build? fields (build value) items
  | _, _, _ => none

/-- A record is built of the value of its first item and of the others. -/
theorem build?_cons_eq_some_iff {α : Type} {field : Field} {fields : List Field}
    {build : Builder α (field :: fields)} {item : Json} {items : List Json} {record : α} :
    build? (field :: fields) build (item :: items) = some record ↔
      ∃ value : field.Value, JsonCodec.decode? item = some value ∧
        build? fields (build value) items = some record :=
  Option.bind_eq_some_iff

/-- A record is built exactly when each item is accepted for its field. -/
theorem isSome_build?_iff {α : Type} {fields : List Field} {build : Builder α fields}
    {items : List Json} :
    (build? fields build items).isSome ↔ List.Forall₂ Field.Accepts fields items := by
  induction fields generalizing items with
  | nil =>
    cases items with
    | nil => exact iff_of_true rfl .nil
    | cons item items => exact iff_of_false Bool.false_ne_true fun matched => by cases matched
  | cons field fields ih =>
    cases items with
    | nil => exact iff_of_false Bool.false_ne_true fun matched => by cases matched
    | cons item items =>
      rw [List.forall₂_cons, build?, Option.bind_eq_bind, Option.isSome_bind, Option.any_eq_true]
      simp only [ih, Field.Accepts, Option.isSome_iff_exists]
      constructor
      · rintro ⟨value, read, rest⟩
        exact ⟨⟨value, read⟩, rest⟩
      · rintro ⟨⟨value, read⟩, rest⟩
        exact ⟨value, read, rest⟩

/-- No record is built of more or fewer items than fields. -/
theorem build?_of_length_ne {α : Type} {fields : List Field} {build : Builder α fields}
    {items : List Json} (differ : items.length ≠ fields.length) :
    build? fields build items = none := by
  rw [← Option.not_isSome_iff_eq_none, isSome_build?_iff]
  exact fun matched => differ matched.length_eq.symm

/-- What it means that a reader reads a record of the declared fields, and nothing else, and builds
it of their values. -/
structure RecordForm {α : Type} (fields : List Field) (decode? : Json → Option α)
    (build : Builder α fields) : Prop where
  /-- A value without parts is no record. -/
  scalar : ∀ value, decode? (.scalar value) = none
  /-- An object is accepted exactly when its keys decode and each declared name occurs exactly once
  among them, with a value that is accepted for its field. -/
  object : ∀ members, (decode? (.object members)).isSome ↔
    ∃ named, namedMembers? members = some named ∧
      ∀ field ∈ fields, ∃ value, OccursOnce named field.name value ∧ field.Accepts value
  /-- An array is accepted exactly when its items are accepted for the fields, one for each, in the
  order of declaration. -/
  array : ∀ items, (decode? (.array items)).isSome ↔ List.Forall₂ Field.Accepts fields items
  /-- The record is built of the values of the items, in the order of declaration. -/
  built : ∀ items, decode? (.array items) = build? fields build items
  /-- An object is read as the array of its fields in order, so nothing but the fields matters. -/
  positional : ∀ members named items, namedMembers? members = some named →
    List.Forall₂ (fun field item => OccursOnce named field.name item) fields items →
      decode? (.object members) = decode? (.array items)
  /-- The order of members does not matter. -/
  permuted : ∀ members others, members.Perm others →
    decode? (.object others) = decode? (.object members)
  /-- A member of another name does not matter, whatever its value is. -/
  ignored : ∀ before after key name value, key.toString? = some name →
    name ∉ fields.map Field.name →
      decode? (.object (before ++ (key, value) :: after)) = decode? (.object (before ++ after))

/-- A value for each item is a list of values in the order of the items. -/
theorem exists_forall₂_iff {α β : Type*} {first second : α → β → Prop} {items : List α} :
    (∃ values, List.Forall₂ first items values ∧ List.Forall₂ second items values) ↔
      ∀ item ∈ items, ∃ value, first item value ∧ second item value := by
  induction items with
  | nil =>
    refine iff_of_true ⟨[], .nil, .nil⟩ ?_
    exact List.forall_mem_nil _
  | cons item items ih =>
    rw [List.forall_mem_cons, ← ih]
    constructor
    · rintro ⟨_, _ | ⟨one, ones⟩, _ | ⟨two, twos⟩⟩
      exact ⟨⟨_, one, two⟩, _, ones, twos⟩
    · rintro ⟨⟨value, one, two⟩, values, ones, twos⟩
      exact ⟨value :: values, .cons one ones, .cons two twos⟩

section Reader

variable {α : Type} {fields : List Field} {decode? : Json → Option α} {build : Builder α fields}

/-- A reader that finds its fields by their names accepts what it finds if each item is accepted for
its field. -/
theorem isSome_iff_of_found {make : List Json → Option α}
    (found : ∀ json, decode? json = (json.fields? (fields.map Field.name)).bind make)
    (made : ∀ items, items.length = fields.length → make items = build? fields build items)
    (json : Json) : (decode? json).isSome ↔
      ∃ items, json.fields? (fields.map Field.name) = some items ∧
        List.Forall₂ Field.Accepts fields items := by
  rw [found, Option.isSome_bind, Option.any_eq_true]
  refine exists_congr fun items => and_congr_right fun read => ?_
  have same : items.length = fields.length :=
    (length_of_fields?_eq_some read).trans (List.length_map _)
  rw [made items same, isSome_build?_iff]

/-- **A reader that finds its fields by their names and builds the record of their values reads just
the declared fields.** -/
theorem RecordForm.of_fields {make : List Json → Option α}
    (found : ∀ json, decode? json = (json.fields? (fields.map Field.name)).bind make)
    (made : ∀ items, items.length = fields.length → make items = build? fields build items) :
    RecordForm fields decode? build where
  scalar _ := found _
  object members := by
    simp only [isSome_iff_of_found found made, fields?_object_eq_some_iff,
      List.forall₂_map_left_iff, ← exists_forall₂_iff]
    constructor
    · rintro ⟨items, ⟨named, decoded, once⟩, accepts⟩
      exact ⟨named, decoded, items, once, accepts⟩
    · rintro ⟨named, decoded, items, once, accepts⟩
      exact ⟨items, ⟨named, decoded, once⟩, accepts⟩
  array items := by
    rw [isSome_iff_of_found found made]
    constructor
    · rintro ⟨others, read, accepts⟩
      rwa [(fields?_array_eq_some_iff.mp read).1]
    · intro accepts
      refine ⟨items, fields?_array_eq_some_iff.mpr ⟨rfl, ?_⟩, accepts⟩
      rw [List.length_map, accepts.length_eq]
  built items := by
    rw [found]
    by_cases same : items.length = fields.length
    · have array : (Json.array items).fields? (fields.map Field.name) = some items :=
        fields?_array_eq_some_iff.mpr ⟨rfl, same.trans (List.length_map _).symm⟩
      rw [array, Option.bind_some, made items same]
    · have none : (Json.array items).fields? (fields.map Field.name) = none :=
        if_neg fun equal => same (equal.trans (List.length_map _))
      rw [none, Option.bind_none, build?_of_length_ne same]
  positional members named items decoded once := by
    have object : (Json.object members).fields? (fields.map Field.name) = some items :=
      fields?_object_eq_some_iff.mpr ⟨named, decoded, List.forall₂_map_left_iff.mpr once⟩
    have array : (Json.array items).fields? (fields.map Field.name) = some items := by
      refine fields?_array_eq_some_iff.mpr ⟨rfl, ?_⟩
      rw [List.length_map, once.length_eq]
    rw [found, found, object, array]
  permuted members others same := by
    rw [found, found, fields?_object_perm same]
  ignored before after key name value decoded other := by
    rw [found, found, fields?_object_of_notMem decoded other]

/-- **The form of a record tells which record is read**: the one that is built of the values of its
fields, wherever they are found. -/
theorem RecordForm.decode?_eq_some_iff (form : RecordForm fields decode? build) {json : Json}
    {record : α} :
    decode? json = some record ↔ ∃ items, json.fields? (fields.map Field.name) = some items ∧
      build? fields build items = some record := by
  cases json with
  | scalar value =>
    rw [form.scalar]
    exact iff_of_false nofun fun ⟨_, found, _⟩ => by cases found
  | array items =>
    rw [form.built]
    constructor
    · intro builds
      have accepts := isSome_build?_iff.mp (Option.isSome_of_eq_some builds)
      refine ⟨items, fields?_array_eq_some_iff.mpr ⟨rfl, ?_⟩, builds⟩
      rw [List.length_map, accepts.length_eq]
    · rintro ⟨others, found, builds⟩
      rwa [(fields?_array_eq_some_iff.mp found).1]
  | object members =>
    constructor
    · intro read
      obtain ⟨named, decoded, each⟩ := (form.object members).mp (Option.isSome_of_eq_some read)
      obtain ⟨items, once, -⟩ := exists_forall₂_iff.mpr each
      refine ⟨items, fields?_object_eq_some_iff.mpr ⟨named, decoded, ?_⟩, ?_⟩
      · exact List.forall₂_map_left_iff.mpr once
      · rw [← form.built, ← form.positional members named items decoded once, read]
    · rintro ⟨items, found, builds⟩
      obtain ⟨named, decoded, once⟩ := fields?_object_eq_some_iff.mp found
      rw [List.forall₂_map_left_iff] at once
      rw [form.positional members named items decoded once, form.built, builds]

/-- A record of one field is built of the value that the field gives. -/
theorem RecordForm.single_eq_some_iff {field : Field} {build : field.Value → α}
    (form : RecordForm [field] decode? build) {json : Json} {record : α} :
    decode? json = some record ↔ ∃ (item : Json) (value : field.Value),
      Gives [(field.name, item)] json ∧ JsonCodec.decode? item = some value ∧
        build value = record := by
  rw [form.decode?_eq_some_iff]
  constructor
  · rintro ⟨items, found, built⟩
    obtain ⟨item, rfl⟩ := List.length_eq_one_iff.mp (length_of_fields?_eq_some found)
    obtain ⟨value, read, rest⟩ := build?_cons_eq_some_iff.mp built
    exact ⟨item, value, fields?_eq_some_iff_gives.mp found, read, Option.some.inj rest⟩
  · rintro ⟨item, value, gives, read, rfl⟩
    exact ⟨[item], fields?_eq_some_iff_gives.mpr gives,
      build?_cons_eq_some_iff.mpr ⟨value, read, rfl⟩⟩

end Reader

end Json

/-! ### The declared fields of each record -/

/-- The fields of permissions. -/
def Permissions.fields : List Json.Field :=
  [.of Bool "enter", .of Bool "read", .of Bool "write"]

/-- The fields of a target address. -/
def TargetAddress.fields : List Json.Field :=
  [.of UInt8 "level", .of UInt16 "bdi", .of UInt32 "offset"]

/-- The field of a configuration. -/
def Config.fields : List Json.Field :=
  [.of Bool "tracing_enabled"]

/-- The fields of a reference violation. -/
def ReferenceViolation.fields : List Json.Field :=
  [.of UInt8 "entry_type", .of Bool "fetch_operation"]

/-- The fields of an addressing exception. -/
def AddressingException.fields : List Json.Field :=
  [.of UInt8 "short_status_field", .of UInt8 "source_bank_level",
    .of UInt16 "source_bank_descriptor_index"]

/-- The fields of a stack fault. -/
def StackFault.fields : List Json.Field :=
  [.of UInt8 "short_status_field", .of UInt8 "base_register", .of UInt32 "relative_address"]

/-- The field of an invalid instruction. -/
def InvalidInstruction.fields : List Json.Field :=
  [.of UInt8 "short_status_field"]

namespace TraceEvent

/-- The field of the event of a decoded gate. -/
def gateDecodedFields : List Json.Field :=
  [.of TargetAddress "target"]

/-- The field of the event of a refused buffer. -/
def gateRejectedFields : List Json.Field :=
  [.of UInt64 "buffer_len"]

/-- The fields of the event of a recognized interrupt. -/
def interruptRecognizedFields : List Json.Field :=
  [.of InterruptClass "class", .of UInt8 "short_status_field", .of Word "status_word0",
    .of Word "status_word1"]

end TraceEvent

/-! ### Each record is read from its fields -/

theorem Permissions.recordForm : Json.RecordForm fields JsonCodec.decode? Permissions.mk :=
  .of_fields (fun _ => rfl) fun
    | [_, _, _], _ => rfl

theorem TargetAddress.recordForm :
    Json.RecordForm fields JsonCodec.decode? TargetAddress.mk :=
  .of_fields (fun _ => rfl) fun
    | [_, _, _], _ => rfl

theorem Config.recordForm : Json.RecordForm fields JsonCodec.decode? Config.mk :=
  .of_fields (fun _ => rfl) fun
    | [_], _ => rfl

theorem ReferenceViolation.recordForm :
    Json.RecordForm fields JsonCodec.decode? ReferenceViolation.ofArguments :=
  .of_fields (fun _ => rfl) fun
    | [_, _], _ => rfl

theorem AddressingException.recordForm :
    Json.RecordForm fields JsonCodec.decode? AddressingException.ofArguments :=
  .of_fields (fun _ => rfl) fun
    | [_, _, _], _ => rfl

theorem StackFault.recordForm :
    Json.RecordForm fields JsonCodec.decode? StackFault.ofArguments :=
  .of_fields (fun _ => rfl) fun
    | [_, _, _], _ => rfl

theorem InvalidInstruction.recordForm :
    Json.RecordForm fields JsonCodec.decode? InvalidInstruction.ofArguments :=
  .of_fields (fun _ => rfl) fun
    | [_], _ => rfl

namespace TraceEvent

theorem gateDecoded_recordForm :
    Json.RecordForm gateDecodedFields decodeGateDecoded? gateDecoded :=
  .of_fields (fun _ => rfl) fun
    | [_], _ => rfl

theorem gateRejected_recordForm :
    Json.RecordForm gateRejectedFields decodeGateRejected? gateRejected :=
  .of_fields (fun _ => rfl) fun
    | [_], _ => rfl

theorem interruptRecognized_recordForm : Json.RecordForm interruptRecognizedFields
    decodeInterruptRecognized? interruptRecognized :=
  .of_fields (fun _ => rfl) fun
    | [_, _, _, _], _ => rfl

end TraceEvent

/-! ### All records -/

/-- **A record is read from its declared fields, and from nothing else.** For every record and for
the contents of every event: an object is accepted exactly when each declared name occurs once among
its decoded keys, with a value that is accepted for its field; an array, when its items are accepted
for the fields in their order, and then the record is built of the values of the items; an object is
read as the array of its fields; and the order of members and members of other names do not matter.
A text is read as the value that is laid out in it, wherever blanks stand between its tokens. -/
theorem Json.records_read_by_declared_fields :
    RecordForm Permissions.fields JsonCodec.decode? Permissions.mk ∧
    RecordForm TargetAddress.fields JsonCodec.decode? TargetAddress.mk ∧
    RecordForm Config.fields JsonCodec.decode? Config.mk ∧
    RecordForm ReferenceViolation.fields JsonCodec.decode? ReferenceViolation.ofArguments ∧
    RecordForm AddressingException.fields JsonCodec.decode? AddressingException.ofArguments ∧
    RecordForm StackFault.fields JsonCodec.decode? StackFault.ofArguments ∧
    RecordForm InvalidInstruction.fields JsonCodec.decode? InvalidInstruction.ofArguments ∧
    RecordForm TraceEvent.gateDecodedFields TraceEvent.decodeGateDecoded? .gateDecoded ∧
    RecordForm TraceEvent.gateRejectedFields TraceEvent.decodeGateRejected? .gateRejected ∧
    RecordForm TraceEvent.interruptRecognizedFields TraceEvent.decodeInterruptRecognized?
      .interruptRecognized ∧
    ∀ (α : Type) [JsonCodec α] (text : String) (value : α), read? text = some value ↔
      ∃ json, LaidOut json text ∧ JsonCodec.decode? json = some value :=
  ⟨Permissions.recordForm, TargetAddress.recordForm, Config.recordForm,
    ReferenceViolation.recordForm, AddressingException.recordForm, StackFault.recordForm,
    InvalidInstruction.recordForm, TraceEvent.gateDecoded_recordForm,
    TraceEvent.gateRejected_recordForm, TraceEvent.interruptRecognized_recordForm,
    fun _ _ _ _ => read?_eq_some_iff⟩

end ControlWords
