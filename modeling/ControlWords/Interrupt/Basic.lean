/-
**Interrupts.**

An interrupt is a record of one of the four kinds that the processor recognizes. Delivery sees its
class, its short status field and its two status words; a word that its kind does not fill is zero.
None of the four kinds may be deferred.

A record is written as its arguments. Reading builds the record from its arguments again, so what is
too large for its field is cut down and no record read from text holds more than its fields can. An
interrupt is written as a case named for its class.
-/

import ControlWords.Interrupt.Class
import ControlWords.Interrupt.Record

namespace ControlWords

/-- An interrupt that the processor recognizes. -/
inductive Interrupt where
  | referenceViolation (record : ReferenceViolation)
  | addressingException (record : AddressingException)
  | stackFault (record : StackFault)
  | invalidInstruction (record : InvalidInstruction)
deriving DecidableEq, Repr

namespace Interrupt

instance : Coe ReferenceViolation Interrupt := ⟨referenceViolation⟩

instance : Coe AddressingException Interrupt := ⟨addressingException⟩

instance : Coe StackFault Interrupt := ⟨stackFault⟩

instance : Coe InvalidInstruction Interrupt := ⟨invalidInstruction⟩

/-- The class of an interrupt. -/
def interruptClass : Interrupt → InterruptClass
  | referenceViolation _ => .referenceViolation
  | addressingException _ => .addressingException
  | stackFault _ => .stackFault
  | invalidInstruction _ => .invalidInstruction

/-- The short status field, which tells apart the causes within a class. -/
def statusField : Interrupt → UInt8
  | referenceViolation record => record.statusField
  | addressingException record => record.statusField
  | stackFault record => record.statusField
  | invalidInstruction record => record.statusField

/-- The first status word, which only a stack fault fills. -/
def statusWord0 : Interrupt → Word
  | stackFault record => record.statusWord0
  | referenceViolation _ | addressingException _ | invalidInstruction _ => 0

/-- The second status word, which only an addressing exception fills. -/
def statusWord1 : Interrupt → Word
  | addressingException record => record.statusWord1
  | referenceViolation _ | stackFault _ | invalidInstruction _ => 0

/-- Whether delivery of an interrupt may be deferred. -/
def isDeferrable : Interrupt → Bool
  | referenceViolation _ | addressingException _ | stackFault _ | invalidInstruction _ => false

/-- The condition in one line, in octal except for the base register. -/
def description : Interrupt → String
  | referenceViolation record =>
    s!"reference violation (ssf {Octal.numeral record.statusField.toNat})"
  | addressingException record =>
    let source :=
      Octal.numeral record.sourceLevel.toNat ++ "," ++ Octal.numeral record.sourceIndex.toNat
    s!"addressing exception (ssf {Octal.numeral record.statusField.toNat}, source L,BDI {source})"
  | stackFault record =>
    let register := toString record.baseRegister.toNat
    "RCS/generic stack under/overflow (ssf " ++ Octal.numeral record.statusField.toNat ++
      ", B" ++ register ++ ")"
  | invalidInstruction record =>
    s!"invalid instruction (ssf {Octal.numeral record.statusField.toNat})"

end Interrupt

/-! ### Serialized forms -/

instance : JsonCodec ReferenceViolation where
  encode record := .record
    [("entry_type", JsonCodec.encode record.entryCode), ("fetch_operation", .bool record.fetch)]
  decode? json := do
    let [entryType, fetch] ← json.fields? ["entry_type", "fetch_operation"] | none
    return .ofArguments (← JsonCodec.decode? entryType) (← fetch.bool?)

instance : JsonCodec AddressingException where
  encode record := .record
    [("short_status_field", JsonCodec.encode record.statusField),
      ("source_bank_level", JsonCodec.encode record.sourceLevel),
      ("source_bank_descriptor_index", JsonCodec.encode record.sourceIndex)]
  decode? json := do
    let [statusField, level, index] ← json.fields?
      ["short_status_field", "source_bank_level", "source_bank_descriptor_index"] | none
    return .ofArguments (← JsonCodec.decode? statusField) (← JsonCodec.decode? level)
      (← JsonCodec.decode? index)

instance : JsonCodec StackFault where
  encode record := .record
    [("short_status_field", JsonCodec.encode record.statusField),
      ("base_register", JsonCodec.encode record.baseRegister),
      ("relative_address", JsonCodec.encode record.relativeAddress)]
  decode? json := do
    let [statusField, register, address] ← json.fields?
      ["short_status_field", "base_register", "relative_address"] | none
    return .ofArguments (← JsonCodec.decode? statusField) (← JsonCodec.decode? register)
      (← JsonCodec.decode? address)

instance : JsonCodec InvalidInstruction where
  encode record := .record
    [("short_status_field", JsonCodec.encode record.statusField)]
  decode? json := do
    let [statusField] ← json.fields? ["short_status_field"] | none
    return .ofArguments (← JsonCodec.decode? statusField)

namespace Interrupt

/-- The serialized form of the record within an interrupt. -/
def encodeRecord : Interrupt → Json
  | referenceViolation record => JsonCodec.encode record
  | addressingException record => JsonCodec.encode record
  | stackFault record => JsonCodec.encode record
  | invalidInstruction record => JsonCodec.encode record

/-- Reads the record of a class as an interrupt; only four classes have records. -/
def decodeRecord? (json : Json) : InterruptClass → Option Interrupt
  | .referenceViolation => referenceViolation <$> JsonCodec.decode? json
  | .addressingException => addressingException <$> JsonCodec.decode? json
  | .stackFault => stackFault <$> JsonCodec.decode? json
  | .invalidInstruction => invalidInstruction <$> JsonCodec.decode? json
  | _ => none

end Interrupt

instance : JsonCodec Interrupt where
  encode interrupt := .variant interrupt.interruptClass.name interrupt.encodeRecord
  decode? json := do
    let (name, body) ← json.variant?
    let interruptClass ← InterruptClass.ofName? name
    Interrupt.decodeRecord? body interruptClass

end ControlWords
