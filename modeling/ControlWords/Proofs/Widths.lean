/-
**No value exceeds the widths of its fields.**

Numbers come into the library at the widths of the machine that it runs on: as arguments, as words
of a buffer and as integers in a text. No value shows more of them than its fields hold:

* `Gate.withinWidths`, `ReferenceViolation.withinWidths` and their like: what the views of a value
  show is in the range of its fields, for every value there is;
* `constructorsCutDown`: a constructor or conversion keeps the low bits of what it is given;
* `readingConstructs`: no text is read past the constructors;
* `every_value_within_widths`: all three together.

Target addresses and the lengths of refused buffers have no such bounds.
-/

import ControlWords.Proofs.Gate.Decoding
import ControlWords.Proofs.Json.Reading
import ControlWords.Interrupt.Lemmas
import ControlWords.Trace

namespace ControlWords

/-! ### Gates -/

/-- What a gate shows is in the range of its fields. -/
structure Gate.WithinWidths (gate : Gate) : Prop where
  normal : ofWords gate.toWords = gate
  level : gate.target.level.toNat ≤ 7
  index : gate.target.index.toNat < 2 ^ 15
  offset : gate.target.offset.toNat < 2 ^ 18
  baseRegister : gate.baseRegister.toNat ≤ 3
  /-- Basic mode can select the registers 12 to 15. -/
  baseRegisterIndex : 12 ≤ gate.baseRegisterIndex.toNat ∧ gate.baseRegisterIndex.toNat ≤ 15
  designator : ∀ bit, gate.designator.word.isSet bit = true → 12 ≤ bit ∧ bit ≤ 17
  /-- A gate grants nothing but entering. -/
  generalPermissions : gate.generalPermissions.read = false ∧ gate.generalPermissions.write = false
  specialPermissions : gate.specialPermissions.read = false ∧ gate.specialPermissions.write = false
  lock : gate.accessLock.ring.toNat < 4
  key : gate.newAccessKey.ring.toNat < 4

/-- A gate is the gate of its own words, and the map says which of their bits its designator has. -/
theorem Gate.isSet_designator {gate : Gate} {bit : Nat}
    (set : gate.designator.word.isSet bit = true) : 12 ≤ bit ∧ bit ≤ 17 := by
  rw [← ofWords_toWords gate, isSet_designator_ofWords, Bool.and_eq_true] at set
  exact of_decide_eq_true set.1

theorem Gate.withinWidths (gate : Gate) : gate.WithinWidths := by
  have narrow : gate.baseRegister.toNat < 2 ^ 2 := gate.baseRegister.isLt
  have level : gate.target.level.toNat = gate.targetLevel.toNat :=
    toNat_uint8_of_narrow _ (by decide)
  have index : gate.target.index.toNat = gate.targetIndex.toNat :=
    toNat_uint16_of_narrow _ (by decide)
  have offset : gate.target.offset.toNat = gate.targetOffset.toNat :=
    toNat_uint32_of_narrow _ (by decide)
  refine ⟨ofWords_toWords gate, ?_, ?_, ?_, ?_, ?_, fun _ => isSet_designator, ⟨rfl, rfl⟩,
    ⟨rfl, rfl⟩, gate.accessLock.ring.isLt, gate.newAccessKey.ring.isLt⟩
  · rw [level]
    exact Nat.le_of_lt_succ gate.targetLevel.isLt
  · rw [index]
    exact gate.targetIndex.isLt
  · rw [offset]
    exact gate.targetOffset.isLt
  · omega
  · rw [toNat_baseRegisterIndex]
    omega

/-! ### Records, interrupts and events -/

/-- What the views of a reference violation show is within its widths. -/
structure ReferenceViolation.WithinWidths (record : ReferenceViolation) : Prop where
  entryCode : record.entryCode.toNat ≤ 3
  /-- The entry type and the fetch flag leave all other bits clear. -/
  statusField : record.statusField &&& ~~~0o61 = 0

theorem ReferenceViolation.withinWidths (record : ReferenceViolation) : record.WithinWidths := by
  refine ⟨?_, record.statusField_and⟩
  rw [toNat_entryCode]
  exact Nat.le_of_lt_succ record.entryType.isLt

/-- What the views of an addressing exception show is within its widths. -/
structure AddressingException.WithinWidths (record : AddressingException) : Prop where
  /-- The low 18 bits are clear. -/
  statusWord1 : ∀ bit, 18 ≤ bit → record.statusWord1.isSet bit = false
  level : record.sourceLevel.toNat ≤ 7
  index : record.sourceIndex.toNat < 2 ^ 15

theorem AddressingException.withinWidths (record : AddressingException) :
    record.WithinWidths := by
  refine ⟨fun _ => record.isSet_statusWord1_of_le, ?_, ?_⟩
  · rw [toNat_sourceLevel]
    exact Nat.le_of_lt_succ record.level.isLt
  · rw [toNat_sourceIndex]
    exact record.index.isLt

/-- What the views of a stack fault show is within its widths. -/
structure StackFault.WithinWidths (record : StackFault) : Prop where
  /-- The bits between the two fields are clear. -/
  statusWord0 : ∀ bit, 6 ≤ bit → bit ≤ 11 → record.statusWord0.isSet bit = false
  baseRegister : record.baseRegister.toNat < 64
  relativeAddress : record.relativeAddress.toNat < 2 ^ 24

theorem StackFault.withinWidths (record : StackFault) : record.WithinWidths := by
  refine ⟨fun _ => record.isSet_statusWord0_gap, ?_, ?_⟩
  · rw [toNat_baseRegister]
    exact record.register.isLt
  · rw [toNat_relativeAddress]
    exact record.address.isLt

/-- The record of an interrupt is within its widths. An invalid instruction has a status field only.
-/
def Interrupt.WithinWidths : Interrupt → Prop
  | referenceViolation record => record.WithinWidths
  | addressingException record => record.WithinWidths
  | stackFault record => record.WithinWidths
  | invalidInstruction _ => True

theorem Interrupt.withinWidths (interrupt : Interrupt) : interrupt.WithinWidths := by
  cases interrupt with
  | referenceViolation record => exact record.withinWidths
  | addressingException record => exact record.withinWidths
  | stackFault record => exact record.withinWidths
  | invalidInstruction record => trivial

theorem Word.toNat_toUInt64_lt (word : Word) : word.toUInt64.toNat < 2 ^ 36 := by
  rw [toNat_toUInt64]
  exact word.isLt

/-- The words of an event are within their width. A target address and a length have any size. -/
def TraceEvent.WithinWidths : TraceEvent → Prop
  | gateDecoded _ | gateRejected _ => True
  | interruptRecognized _ _ statusWord0 statusWord1 =>
    statusWord0.toUInt64.toNat < 2 ^ 36 ∧ statusWord1.toUInt64.toNat < 2 ^ 36

theorem TraceEvent.withinWidths (event : TraceEvent) : event.WithinWidths := by
  cases event with
  | gateDecoded target => trivial
  | gateRejected length => trivial
  | interruptRecognized interruptClass statusField statusWord0 statusWord1 =>
    exact ⟨statusWord0.toNat_toUInt64_lt, statusWord1.toNat_toUInt64_lt⟩

/-! ### Constructors -/

/-- What the constructors and conversions make of what they are given. -/
structure ConstructorsCutDown : Prop where
  word : ∀ value : UInt64, (Word.ofUInt64 value).toUInt64.toNat = value.toNat % 2 ^ 36
  narrowWord : ∀ value : UInt32, (Word.ofUInt32 value).toUInt64.toNat = value.toNat
  register : ∀ composite : UInt64,
    (DesignatorRegister.ofComposite composite).word.toUInt64.toNat = composite.toNat % 2 ^ 36
  accessRing : ∀ (role : AccessRole) (ring : UInt8) (domain : UInt16),
    (Access.ofParts ring domain : Access role).ring.toNat = ring.toNat % 2 ^ 2
  accessComposite : ∀ (role : AccessRole) (composite : UInt64),
    (Access.ofComposite composite : Access role).toUInt64.toNat = composite.toNat % 2 ^ 18
  /-- Each view of a gate shows the bits of its own field. -/
  gate : ∀ words : GateWords, (Gate.ofWords words).FollowsMap words
  entryCode : ∀ (entryType : UInt8) (fetch : Bool),
    (ReferenceViolation.ofArguments entryType fetch).entryCode.toNat = entryType.toNat % 2 ^ 2
  sourceLevel : ∀ (statusField level : UInt8) (index : UInt16),
    (AddressingException.ofArguments statusField level index).sourceLevel.toNat =
      level.toNat % 2 ^ 3
  sourceIndex : ∀ (statusField level : UInt8) (index : UInt16),
    (AddressingException.ofArguments statusField level index).sourceIndex.toNat =
      index.toNat % 2 ^ 15
  baseRegister : ∀ (statusField register : UInt8) (address : UInt32),
    (StackFault.ofArguments statusField register address).baseRegister.toNat =
      register.toNat % 2 ^ 6
  relativeAddress : ∀ (statusField register : UInt8) (address : UInt32),
    (StackFault.ofArguments statusField register address).relativeAddress.toNat =
      address.toNat % 2 ^ 24

/-- **A constructor keeps the low bits of what it is given.** -/
theorem constructorsCutDown : ConstructorsCutDown where
  word value := (Word.toNat_toUInt64 _).trans (Word.toNat_ofUInt64 value)
  narrowWord value := (Word.toNat_toUInt64 _).trans (Word.toNat_ofUInt32 value)
  register composite := (Word.toNat_toUInt64 _).trans (Word.toNat_ofUInt64 composite)
  accessRing _ := Access.toNat_ring_ofParts
  accessComposite _ := Access.toNat_toUInt64_ofComposite
  gate := Gate.followsMap_ofWords
  entryCode := ReferenceViolation.toNat_entryCode_ofArguments
  sourceLevel := AddressingException.toNat_sourceLevel_ofArguments
  sourceIndex := AddressingException.toNat_sourceIndex_ofArguments
  baseRegister := StackFault.toNat_baseRegister_ofArguments
  relativeAddress := StackFault.toNat_relativeAddress_ofArguments

/-! ### Reading -/

/-- How a text is read: what stands in it is found at its full width and given to a constructor. -/
structure ReadingConstructs : Prop where
  word : ReadThrough Json.number? Word.ofUInt64
  register : ReadThrough Json.number? DesignatorRegister.ofComposite
  access : ∀ role : AccessRole,
    ReadThrough Json.number? (Access.ofComposite : UInt64 → Access role)
  gate : ReadThrough Gate.numbers? Gate.ofNumbers
  referenceViolation : ReadThrough ReferenceViolation.arguments? fun (entryType, fetch) =>
    ReferenceViolation.ofArguments entryType fetch
  addressingException : ReadThrough AddressingException.arguments?
    fun (statusField, level, index) => AddressingException.ofArguments statusField level index
  stackFault : ReadThrough StackFault.arguments? fun (statusField, register, address) =>
    StackFault.ofArguments statusField register address

/-- **No text is read past the constructors.** -/
theorem readingConstructs : ReadingConstructs where
  word := Word.readThrough
  register := DesignatorRegister.readThrough
  access := Access.readThrough
  gate := Gate.readThrough
  referenceViolation := ReferenceViolation.readThrough
  addressingException := AddressingException.readThrough
  stackFault := StackFault.readThrough

/-! ### All values -/

/-- **No value exceeds the widths of its fields.** What the views of a value show is in the range of
its fields, for every value of every type, however it came about; so it is within an interrupt and
within an event. Numbers that are too large are cut down by the constructors, and what is read from
a text is given to the constructors too. -/
theorem every_value_within_widths :
    (∀ word : Word, word.toUInt64.toNat < 2 ^ 36) ∧
    (∀ register : DesignatorRegister, register.word.toUInt64.toNat < 2 ^ 36) ∧
    (∀ lock : AccessLock, lock.ring.toNat < 4) ∧
    (∀ key : AccessKey, key.ring.toNat < 4) ∧
    (∀ gate : Gate, gate.WithinWidths) ∧
    (∀ record : ReferenceViolation, record.WithinWidths) ∧
    (∀ record : AddressingException, record.WithinWidths) ∧
    (∀ record : StackFault, record.WithinWidths) ∧
    (∀ interrupt : Interrupt, interrupt.WithinWidths) ∧
    (∀ event : TraceEvent, event.WithinWidths) ∧
    ConstructorsCutDown ∧ ReadingConstructs := by
  refine ⟨Word.toNat_toUInt64_lt, fun register => register.word.toNat_toUInt64_lt,
    fun lock => lock.ring.isLt, fun key => key.ring.isLt, Gate.withinWidths,
    ReferenceViolation.withinWidths, AddressingException.withinWidths, StackFault.withinWidths,
    Interrupt.withinWidths, TraceEvent.withinWidths, constructorsCutDown, readingConstructs⟩

end ControlWords
