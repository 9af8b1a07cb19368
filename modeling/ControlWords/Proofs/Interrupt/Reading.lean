/-
**Records read from their arguments.**

Two limits act on a number among the arguments of a record. Its type refuses what is too large to be
read at all, and its place in the record cuts down what is read:

* `UInt8.decode?_natural` and its like: the limit of a type;
* `Interrupt.WrittenArgument`: an argument as it is given in a text, whether it fits its type, and
  what is kept of it;
* `Interrupt.ReadsAsBuilt`: what is read, alone or within an interrupt, is what is built of the
  arguments, and what is written is what the record keeps of them;
* `Interrupt.records_read_as_built`: all four records are read as they are built.
-/

import Mathlib.Tactic.Simps.Basic
import ControlWords.Proofs.Json.Cases
import ControlWords.Proofs.Json.Format

namespace ControlWords

/-! ### Numbers and the limits of their types -/

theorem bind_ite_some {α β : Type} {condition : Prop} [Decidable condition] (value : α)
    (next : α → Option β) :
    (if condition then some value else none).bind next =
      if condition then next value else none := by
  split <;> rfl

theorem Json.map_naturalBelow?_natural {α : Type} (build : Nat → α) (bound value : Nat) :
    build <$> (natural value).naturalBelow? bound =
      if value < bound then some (build value) else none := by
  have read : (natural value).naturalBelow? bound =
      if value < bound then some value else none := rfl
  rw [read, Option.map_eq_map, Option.map_eq_bind]
  exact bind_ite_some value _

@[simp] theorem UInt8.decode?_natural (value : Nat) :
    JsonCodec.decode? (.natural value) = if value < 2 ^ 8 then some (UInt8.ofNat value) else none :=
  Json.map_naturalBelow?_natural _ _ _

@[simp] theorem UInt16.decode?_natural (value : Nat) :
    JsonCodec.decode? (.natural value) =
      if value < 2 ^ 16 then some (UInt16.ofNat value) else none :=
  Json.map_naturalBelow?_natural _ _ _

@[simp] theorem UInt32.decode?_natural (value : Nat) :
    JsonCodec.decode? (.natural value) =
      if value < 2 ^ 32 then some (UInt32.ofNat value) else none :=
  Json.map_naturalBelow?_natural _ _ _

namespace Interrupt

/-! ### Arguments -/

/-- An argument of a record. -/
structure WrittenArgument where
  name : String
  /-- What is given for it in a text. -/
  given : Json
  /-- Whether what is given is within the range of its type. -/
  fits : Bool
  /-- What is written for it again. -/
  kept : Json

namespace WrittenArgument

/-- A truth value. -/
@[simps] def flag (name : String) (value : Bool) : WrittenArgument where
  name
  given := .bool value
  fits := true
  kept := .bool value

/-- A number of a type of some bits, all of which have a place in the record. -/
@[simps] def whole (name : String) (typeWidth value : Nat) : WrittenArgument where
  name
  given := .natural value
  fits := value < 2 ^ typeWidth
  kept := .natural value

/-- A number of a type of some bits, of which only the lowest have a place in the record. -/
@[simps] def low (name : String) (typeWidth width value : Nat) : WrittenArgument where
  name
  given := .natural value
  fits := value < 2 ^ typeWidth
  kept := .natural (value % 2 ^ width)

end WrittenArgument

/-- The arguments as they are given, by their names. -/
def givenFields (arguments : List WrittenArgument) : List (String × Json) :=
  arguments.map fun argument => (argument.name, argument.given)

/-- What is written for the arguments again, by their names. -/
def keptFields (arguments : List WrittenArgument) : List (String × Json) :=
  arguments.map fun argument => (argument.name, argument.kept)

/-! ### Records and interrupts -/

section

variable {α : Type} [JsonCodec α]

/-- The interrupts of a class hold records of a type. -/
structure HoldsRecord (wrap : α → Interrupt) (interruptClass : InterruptClass) : Prop where
  classified : ∀ record, (wrap record).interruptClass = interruptClass
  encodeRecord : ∀ record, (wrap record).encodeRecord = JsonCodec.encode record
  decodeRecord? : ∀ json, decodeRecord? json interruptClass = (JsonCodec.decode? json).map wrap

/-- What it means that a record is read as it is built of its arguments. -/
structure ReadsAsBuilt (wrap : α → Interrupt) (name : String) (arguments : List WrittenArgument)
    (built : α) : Prop where
  /-- The arguments are given by their own record, among others. -/
  gives : Json.Gives (givenFields arguments) (.record (givenFields arguments))
  /-- A text that gives the arguments is refused exactly when one of them does not fit its type, and
  is otherwise read as the record that is built. -/
  record : ∀ json text, Json.Gives (givenFields arguments) json → Json.LaidOut json text →
    Json.read? text = if arguments.all WrittenArgument.fits then some built else none
  /-- The same holds of an interrupt of the name over these arguments. -/
  interrupt : ∀ key body text, key.toString? = some name → Json.Gives (givenFields arguments) body →
    Json.LaidOut (.object [(key, body)]) text →
      Json.read? text = if arguments.all WrittenArgument.fits then some (wrap built) else none
  /-- What is written for the record has each argument cut down to its place. -/
  write_record : arguments.all WrittenArgument.fits →
    Json.write built = (Json.record (keptFields arguments)).compact
  /-- The same is written within the interrupt. -/
  write_interrupt : arguments.all WrittenArgument.fits →
    Json.write (wrap built) = (Json.variant name (.record (keptFields arguments))).compact

theorem HoldsRecord.decode?_case {wrap : α → Interrupt} {interruptClass : InterruptClass}
    (holds : HoldsRecord wrap interruptClass) {key : Json.Text} {body : Json}
    (named : key.toString? = some interruptClass.name) :
    JsonCodec.decode? (Json.object [(key, body)]) = (JsonCodec.decode? body).map wrap := by
  have case : (Json.object [(key, body)]).variant? = some (interruptClass.name, body) :=
    Json.variant?_eq_some_iff.mpr ⟨key, rfl, named⟩
  show (Json.variant? _).bind _ = _
  rw [case, Option.bind_some, ← holds.decodeRecord?]
  show (InterruptClass.ofName? _).bind _ = _
  rw [InterruptClass.ofName?_name, Option.bind_some]

theorem HoldsRecord.encode {wrap : α → Interrupt} {interruptClass : InterruptClass}
    (holds : HoldsRecord wrap interruptClass) (record : α) :
    JsonCodec.encode (wrap record) =
      Json.variant interruptClass.name (JsonCodec.encode record) := by
  show Json.variant (wrap record).interruptClass.name (wrap record).encodeRecord = _
  rw [holds.classified, holds.encodeRecord]

/-- A record that is made of the arguments that are found under their names is read as it is
built. -/
theorem ReadsAsBuilt.of_fields {wrap : α → Interrupt} {interruptClass : InterruptClass}
    {name : String} {names : List String} {arguments : List WrittenArgument} {built : α}
    {make : List Json → Option α}
    (holds : HoldsRecord wrap interruptClass) (classNamed : interruptClass.name = name)
    (found : ∀ json, JsonCodec.decode? json = (json.fields? names).bind make)
    (argumentsNamed : (givenFields arguments).map Prod.fst = names) (distinct : names.Nodup)
    (made : make ((givenFields arguments).map Prod.snd) =
      if arguments.all WrittenArgument.fits then some built else none)
    (written : arguments.all WrittenArgument.fits →
      JsonCodec.encode built = Json.record (keptFields arguments)) :
    ReadsAsBuilt wrap name arguments built := by
  subst classNamed argumentsNamed
  have decoded : ∀ json, Json.Gives (givenFields arguments) json →
      JsonCodec.decode? json = if arguments.all WrittenArgument.fits then some built else none := by
    intro json gives
    rw [found, Json.fields?_eq_some_iff_gives.mpr gives, Option.bind_some, made]
  refine ⟨Json.gives_record distinct, ?_, ?_, ?_, ?_⟩
  · intro json text gives layout
    rw [Json.read?_of_laidOut layout, decoded json gives]
  · intro key body text named gives layout
    rw [Json.read?_of_laidOut layout, holds.decode?_case named, decoded body gives]
    split <;> rfl
  · intro fits
    rw [Json.write, written fits]
  · intro fits
    rw [Json.write, holds.encode, written fits]

end

end Interrupt

/-! ### The four records -/

/-- A number that fits its type reaches the record whole, and only its place there cuts it down. -/
theorem ReferenceViolation.readsAsBuilt (entryType : Nat) (fetch : Bool) :
    Interrupt.ReadsAsBuilt .referenceViolation "ReferenceViolation"
      [.low "entry_type" 8 2 entryType, .flag "fetch_operation" fetch]
      (ofArguments (UInt8.ofNat entryType) fetch) := by
  refine .of_fields ⟨fun _ => rfl, fun _ => rfl, fun _ => rfl⟩ rfl (fun _ => rfl) rfl (by decide)
    ?_ ?_
  · simp [Interrupt.givenFields, bind_ite_some]
  · intro fits
    simp only [List.all_cons, List.all_nil, Interrupt.WrittenArgument.low_fits,
      Interrupt.WrittenArgument.flag_fits, Bool.and_true, decide_eq_true_eq] at fits
    show Json.record [("entry_type", .natural (ofArguments _ fetch).entryCode.toNat),
      ("fetch_operation", .bool fetch)] = _
    rw [toNat_entryCode_ofArguments, UInt8.toNat_ofNat_of_lt' fits]
    rfl

theorem AddressingException.readsAsBuilt (statusField level index : Nat) :
    Interrupt.ReadsAsBuilt .addressingException "AddressingException"
      [.whole "short_status_field" 8 statusField, .low "source_bank_level" 8 3 level,
        .low "source_bank_descriptor_index" 16 15 index]
      (ofArguments (UInt8.ofNat statusField) (UInt8.ofNat level) (UInt16.ofNat index)) := by
  refine .of_fields ⟨fun _ => rfl, fun _ => rfl, fun _ => rfl⟩ rfl (fun _ => rfl) rfl (by decide)
    ?_ ?_
  · simp [Interrupt.givenFields, bind_ite_some, ← ite_and]
  · intro fits
    simp only [List.all_cons, List.all_nil, Interrupt.WrittenArgument.whole_fits,
      Interrupt.WrittenArgument.low_fits, Bool.and_true, Bool.and_eq_true,
      decide_eq_true_eq] at fits
    obtain ⟨smallField, smallLevel, smallIndex⟩ := fits
    show Json.record [("short_status_field", .natural (UInt8.ofNat statusField).toNat),
      ("source_bank_level", .natural (ofArguments _ _ _).sourceLevel.toNat),
      ("source_bank_descriptor_index", .natural (ofArguments _ _ _).sourceIndex.toNat)] = _
    rw [toNat_sourceLevel_ofArguments, toNat_sourceIndex_ofArguments,
      UInt8.toNat_ofNat_of_lt' smallField, UInt8.toNat_ofNat_of_lt' smallLevel,
      UInt16.toNat_ofNat_of_lt' smallIndex]
    rfl

theorem StackFault.readsAsBuilt (statusField register address : Nat) :
    Interrupt.ReadsAsBuilt .stackFault "RcsGenericStackUnderOverflow"
      [.whole "short_status_field" 8 statusField, .low "base_register" 8 6 register,
        .low "relative_address" 32 24 address]
      (ofArguments (UInt8.ofNat statusField) (UInt8.ofNat register) (UInt32.ofNat address)) := by
  refine .of_fields ⟨fun _ => rfl, fun _ => rfl, fun _ => rfl⟩ rfl (fun _ => rfl) rfl (by decide)
    ?_ ?_
  · simp [Interrupt.givenFields, bind_ite_some, ← ite_and]
  · intro fits
    simp only [List.all_cons, List.all_nil, Interrupt.WrittenArgument.whole_fits,
      Interrupt.WrittenArgument.low_fits, Bool.and_true, Bool.and_eq_true,
      decide_eq_true_eq] at fits
    obtain ⟨smallField, smallRegister, smallAddress⟩ := fits
    show Json.record [("short_status_field", .natural (UInt8.ofNat statusField).toNat),
      ("base_register", .natural (ofArguments _ _ _).baseRegister.toNat),
      ("relative_address", .natural (ofArguments _ _ _).relativeAddress.toNat)] = _
    rw [toNat_baseRegister_ofArguments, toNat_relativeAddress_ofArguments,
      UInt8.toNat_ofNat_of_lt' smallField, UInt8.toNat_ofNat_of_lt' smallRegister,
      UInt32.toNat_ofNat_of_lt' smallAddress]
    rfl

theorem InvalidInstruction.readsAsBuilt (statusField : Nat) :
    Interrupt.ReadsAsBuilt .invalidInstruction "InvalidInstruction"
      [.whole "short_status_field" 8 statusField] (ofArguments (UInt8.ofNat statusField)) := by
  refine .of_fields ⟨fun _ => rfl, fun _ => rfl, fun _ => rfl⟩ rfl (fun _ => rfl) rfl (by decide)
    ?_ ?_
  · simp [Interrupt.givenFields, bind_ite_some]
  · intro fits
    simp only [List.all_cons, List.all_nil, Interrupt.WrittenArgument.whole_fits, Bool.and_true,
      decide_eq_true_eq] at fits
    show Json.record [("short_status_field", .natural (UInt8.ofNat statusField).toNat)] = _
    rw [UInt8.toNat_ofNat_of_lt' fits]
    rfl

/-- **Records are read as they are built.** Let the arguments of a record be any natural numbers and
truth values, and let them be given by an object or an array. The text is refused exactly when a
number is too large for its type of 8, 16 or 32 bits. Otherwise it is read as the record that is
built of these arguments, and a case of the record's name over them is read as the interrupt that
holds this record. What is written again has each number cut down to its place: two bits for an
entry type, three for a level, fifteen for a descriptor index, six for a base register and
twenty-four for a relative address, while a status field is unchanged. -/
theorem Interrupt.records_read_as_built :
    (∀ (entryType : Nat) (fetch : Bool), ReadsAsBuilt .referenceViolation "ReferenceViolation"
      [.low "entry_type" 8 2 entryType, .flag "fetch_operation" fetch]
      (ReferenceViolation.ofArguments (UInt8.ofNat entryType) fetch)) ∧
    (∀ statusField level index : Nat, ReadsAsBuilt .addressingException "AddressingException"
      [.whole "short_status_field" 8 statusField, .low "source_bank_level" 8 3 level,
        .low "source_bank_descriptor_index" 16 15 index]
      (AddressingException.ofArguments (UInt8.ofNat statusField) (UInt8.ofNat level)
        (UInt16.ofNat index))) ∧
    (∀ statusField register address : Nat, ReadsAsBuilt .stackFault "RcsGenericStackUnderOverflow"
      [.whole "short_status_field" 8 statusField, .low "base_register" 8 6 register,
        .low "relative_address" 32 24 address]
      (StackFault.ofArguments (UInt8.ofNat statusField) (UInt8.ofNat register)
        (UInt32.ofNat address))) ∧
    (∀ statusField : Nat, ReadsAsBuilt .invalidInstruction "InvalidInstruction"
      [.whole "short_status_field" 8 statusField]
      (InvalidInstruction.ofArguments (UInt8.ofNat statusField))) :=
  ⟨ReferenceViolation.readsAsBuilt, AddressingException.readsAsBuilt, StackFault.readsAsBuilt,
    InvalidInstruction.readsAsBuilt⟩

end ControlWords
