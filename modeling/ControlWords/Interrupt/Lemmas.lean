/-
**Interrupt records, their arguments and their classes.**

* `toNat_entryCode`, `toNat_sourceLevel` and the others: what a record shows of an argument is the
  number that it holds, with no bit lost;
* `toNat_entryCode_ofArguments` and the others: what is too large for its place is cut down when a
  record is built;
* `statusField_and`, `isSet_statusWord1_of_le` and `isSet_statusWord0_gap`: a status field or status
  word holds nothing beside the arguments;
* `ofArguments_arguments`, for each kind: a record is built again from what it shows;
* `arguments_fit`: the arguments of a status word fit the fields that they fill;
* `arguments_of_statusField`, `arguments_of_statusWord1` and `arguments_of_statusWord0`: the status
  field or status word that a kind fills shows its arguments;
* `eq_of_statusField_eq` and its like: so that no two records of a kind share it;
* `InterruptClass.ofName?_name`: a class is found by its name.
-/

import ControlWords.BitField.Lemmas
import ControlWords.Interrupt.Basic

namespace ControlWords

/-! ### Records -/

namespace ReferenceViolation

variable (record : ReferenceViolation)

theorem toNat_entryCode : record.entryCode.toNat = record.entryType.toNat :=
  toNat_uint8_of_narrow _ (by decide)

theorem toNat_entryCode_ofArguments (entryType : UInt8) (fetch : Bool) :
    (ofArguments entryType fetch).entryCode.toNat = entryType.toNat % 2 ^ 2 := by
  rw [toNat_entryCode, ofArguments, BitVec.toNat_setWidth, UInt8.toNat_toBitVec]

/-- The entry type and the fetch flag take three bits of the status field, and no other is set. -/
theorem statusField_and : record.statusField &&& ~~~0o61 = 0 := by
  obtain ⟨entryType, fetch⟩ := record
  revert entryType fetch
  decide

/-- A reference violation is built again from what it shows. -/
theorem ofArguments_arguments : ofArguments record.entryCode record.fetch = record :=
  congrArg (mk · record.fetch) (setWidth_eq_of_toNat_eq _ record.toNat_entryCode)

/-- The status field shows the entry type and the fetch flag. -/
theorem arguments_of_statusField :
    record.statusField >>> 4 = record.entryCode ∧
      (record.statusField &&& 1 != 0) = record.fetch := by
  obtain ⟨entryType, fetch⟩ := record
  revert entryType fetch
  decide

theorem eq_of_statusField_eq {first second : ReferenceViolation}
    (field : first.statusField = second.statusField) : first = second := by
  have entryCode : first.entryCode = second.entryCode := by
    rw [← first.arguments_of_statusField.1, field, second.arguments_of_statusField.1]
  have fetch : first.fetch = second.fetch := by
    rw [← first.arguments_of_statusField.2, field, second.arguments_of_statusField.2]
  rw [← first.ofArguments_arguments, entryCode, fetch, second.ofArguments_arguments]

end ReferenceViolation

namespace AddressingException

variable (record : AddressingException)

theorem toNat_sourceLevel : record.sourceLevel.toNat = record.level.toNat :=
  toNat_uint8_of_narrow _ (by decide)

theorem toNat_sourceIndex : record.sourceIndex.toNat = record.index.toNat :=
  toNat_uint16_of_narrow _ (by decide)

theorem toNat_sourceLevel_ofArguments (statusField level : UInt8) (index : UInt16) :
    (ofArguments statusField level index).sourceLevel.toNat = level.toNat % 2 ^ 3 := by
  rw [toNat_sourceLevel, ofArguments, BitVec.toNat_setWidth, UInt8.toNat_toBitVec]
  rfl

theorem toNat_sourceIndex_ofArguments (statusField level : UInt8) (index : UInt16) :
    (ofArguments statusField level index).sourceIndex.toNat = index.toNat % 2 ^ 15 := by
  rw [toNat_sourceIndex, ofArguments, BitVec.toNat_setWidth, UInt16.toNat_toBitVec]
  rfl

/-- The low 18 bits of status word 1 are clear. -/
theorem isSet_statusWord1_of_le {bit : Nat} (low : 18 ≤ bit) :
    record.statusWord1.isSet bit = false := by
  have level : levelField.last = 2 := rfl
  have index : indexField.last = 17 := rfl
  exact BitField.isSet_pair_of_outside (by omega) (by omega)

/-- An addressing exception is built again from what it shows. -/
theorem ofArguments_arguments :
    ofArguments record.statusField record.sourceLevel record.sourceIndex = record :=
  congr (congrArg (mk record.statusField) (setWidth_eq_of_toNat_eq _ record.toNat_sourceLevel))
    (setWidth_eq_of_toNat_eq _ record.toNat_sourceIndex)

/-- The level and the index fit the two fields of status word 1. -/
theorem arguments_fit : BitField.PairFits levelField indexField record.sourceLevel.toUInt64
    record.sourceIndex.toUInt64 where
  apart := by decide
  value := by
    rw [UInt8.toNat_toUInt64, toNat_sourceLevel]
    exact record.level.isLt
  secondValue := by
    rw [UInt16.toNat_toUInt64, toNat_sourceIndex]
    exact record.index.isLt

/-- Status word 1 shows the level and the index. -/
theorem arguments_of_statusWord1 :
    levelField.extract record.statusWord1 = record.sourceLevel.toUInt64 ∧
      indexField.extract record.statusWord1 = record.sourceIndex.toUInt64 :=
  BitField.extract_pair record.arguments_fit

theorem eq_of_statusWord1_eq {first second : AddressingException}
    (field : first.statusField = second.statusField)
    (word : first.statusWord1 = second.statusWord1) : first = second := by
  obtain ⟨level, index⟩ := BitField.eq_of_pair_eq first.arguments_fit second.arguments_fit word
  rw [← first.ofArguments_arguments, field, UInt8.toUInt64_inj.mp level,
    UInt16.toUInt64_inj.mp index, second.ofArguments_arguments]

end AddressingException

namespace StackFault

variable (record : StackFault)

theorem toNat_baseRegister : record.baseRegister.toNat = record.register.toNat :=
  toNat_uint8_of_narrow _ (by decide)

theorem toNat_relativeAddress : record.relativeAddress.toNat = record.address.toNat :=
  toNat_uint32_of_narrow _ (by decide)

theorem toNat_baseRegister_ofArguments (statusField register : UInt8) (address : UInt32) :
    (ofArguments statusField register address).baseRegister.toNat = register.toNat % 2 ^ 6 := by
  rw [toNat_baseRegister, ofArguments, BitVec.toNat_setWidth, UInt8.toNat_toBitVec]
  rfl

theorem toNat_relativeAddress_ofArguments (statusField register : UInt8) (address : UInt32) :
    (ofArguments statusField register address).relativeAddress.toNat = address.toNat % 2 ^ 24 := by
  rw [toNat_relativeAddress, ofArguments, BitVec.toNat_setWidth, UInt32.toNat_toBitVec]
  rfl

/-- The bits of status word 0 between the base register and the relative address are clear. -/
theorem isSet_statusWord0_gap {bit : Nat} (after : 6 ≤ bit) (before : bit ≤ 11) :
    record.statusWord0.isSet bit = false := by
  have register : registerField.last = 5 := rfl
  have address : addressField.first = 12 := rfl
  exact BitField.isSet_pair_of_outside (by omega) (by omega)

/-- A stack fault is built again from what it shows. -/
theorem ofArguments_arguments :
    ofArguments record.statusField record.baseRegister record.relativeAddress = record :=
  congr (congrArg (mk record.statusField) (setWidth_eq_of_toNat_eq _ record.toNat_baseRegister))
    (setWidth_eq_of_toNat_eq _ record.toNat_relativeAddress)

/-- The base register and the relative address fit the two fields of status word 0. -/
theorem arguments_fit : BitField.PairFits registerField addressField record.baseRegister.toUInt64
    record.relativeAddress.toUInt64 where
  apart := by decide
  value := by
    rw [UInt8.toNat_toUInt64, toNat_baseRegister]
    exact record.register.isLt
  secondValue := by
    rw [UInt32.toNat_toUInt64, toNat_relativeAddress]
    exact record.address.isLt

/-- Status word 0 shows the base register and the relative address. -/
theorem arguments_of_statusWord0 :
    registerField.extract record.statusWord0 = record.baseRegister.toUInt64 ∧
      addressField.extract record.statusWord0 = record.relativeAddress.toUInt64 :=
  BitField.extract_pair record.arguments_fit

theorem eq_of_statusWord0_eq {first second : StackFault}
    (field : first.statusField = second.statusField)
    (word : first.statusWord0 = second.statusWord0) : first = second := by
  obtain ⟨register, address⟩ :=
    BitField.eq_of_pair_eq first.arguments_fit second.arguments_fit word
  rw [← first.ofArguments_arguments, field, UInt8.toUInt64_inj.mp register,
    UInt32.toUInt64_inj.mp address, second.ofArguments_arguments]

end StackFault

/-! ### Classes -/

/-- No two classes have one name. -/
@[simp] theorem InterruptClass.ofName?_name (interruptClass : InterruptClass) :
    ofName? interruptClass.name = some interruptClass := by
  cases interruptClass <;> decide

end ControlWords
