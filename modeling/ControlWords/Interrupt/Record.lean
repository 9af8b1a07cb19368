/-
**Interrupt records.**

There are four kinds of records. Each holds its arguments at the widths of the fields that they
fill, so building a record drops the high bits of numbers that are too large and never fails. From
the arguments follow the short status field and the status word that the record fills:

* a reference violation packs its entry type and the fetch flag into the short status field;
* an addressing exception fills status word 1 with the level and index of the source bank;
* a stack fault fills status word 0 with the base register and the relative address.
-/

import ControlWords.BitField.Basic

namespace ControlWords

/-! ### Reference violations -/

/-- A reference to storage or registers that is not granted. -/
structure ReferenceViolation where
  /-- What was referenced or denied. -/
  entryType : BitVec 2
  /-- Whether an instruction was being fetched. -/
  fetch : Bool
deriving DecidableEq, Repr

namespace ReferenceViolation

/-- The record of the low two bits of an entry type. -/
def ofArguments (entryType : UInt8) (fetch : Bool) : ReferenceViolation where
  entryType := entryType.toBitVec.setWidth _
  fetch

/-- The entry type as a byte. -/
def entryCode (record : ReferenceViolation) : UInt8 :=
  UInt8.ofNat record.entryType.toNat

/-- The short status field: the entry type in its upper bits and the fetch flag in the lowest. -/
def statusField (record : ReferenceViolation) : UInt8 :=
  (record.entryCode <<< 4) ||| record.fetch.toUInt8

end ReferenceViolation

/-! ### Addressing exceptions -/

namespace AddressingException

/-- The field of status word 1 that holds the level of the source bank. -/
def levelField : BitField where
  word := 1
  first := 0
  width := 3

/-- The field of status word 1 that holds the descriptor index of the source bank. -/
def indexField : BitField where
  word := 1
  first := 3
  width := 15

end AddressingException

/-- A bank that cannot be addressed. -/
structure AddressingException where
  /-- The short status field, kept as it is given. -/
  statusField : UInt8
  /-- The level of the source bank. -/
  level : BitVec AddressingException.levelField.width
  /-- The descriptor index of the source bank. -/
  index : BitVec AddressingException.indexField.width
deriving DecidableEq, Repr

namespace AddressingException

/-- The record of a status field and of the low bits of a level and an index. -/
def ofArguments (statusField level : UInt8) (index : UInt16) : AddressingException where
  statusField
  level := level.toBitVec.setWidth _
  index := index.toBitVec.setWidth _

/-- The level of the source bank as a byte. -/
def sourceLevel (record : AddressingException) : UInt8 :=
  UInt8.ofNat record.level.toNat

/-- The descriptor index of the source bank as a number of 16 bits. -/
def sourceIndex (record : AddressingException) : UInt16 :=
  UInt16.ofNat record.index.toNat

/-- Status word 1: the level and the index, and zero elsewhere. -/
def statusWord1 (record : AddressingException) : Word :=
  levelField.pair indexField record.sourceLevel.toUInt64 record.sourceIndex.toUInt64

end AddressingException

/-! ### Stack faults -/

namespace StackFault

/-- The field of status word 0 that holds the number of the base register. -/
def registerField : BitField where
  word := 0
  first := 0
  width := 6

/-- The field of status word 0 that holds the relative address. -/
def addressField : BitField where
  word := 0
  first := 12
  width := 24

end StackFault

/-- An overflow or underflow of the return control stack or of a generic stack. -/
structure StackFault where
  /-- The short status field, kept as it is given. -/
  statusField : UInt8
  /-- The number of the base register. -/
  register : BitVec StackFault.registerField.width
  /-- The relative address that was reached. -/
  address : BitVec StackFault.addressField.width
deriving DecidableEq, Repr

namespace StackFault

/-- The record of a status field and of the low bits of a register number and an address. -/
def ofArguments (statusField register : UInt8) (address : UInt32) : StackFault where
  statusField
  register := register.toBitVec.setWidth _
  address := address.toBitVec.setWidth _

/-- The number of the base register as a byte. -/
def baseRegister (record : StackFault) : UInt8 :=
  UInt8.ofNat record.register.toNat

/-- The relative address as a number of 32 bits. -/
def relativeAddress (record : StackFault) : UInt32 :=
  UInt32.ofNat record.address.toNat

/-- Status word 0: the base register and the relative address, and zero elsewhere. -/
def statusWord0 (record : StackFault) : Word :=
  registerField.pair addressField record.baseRegister.toUInt64 record.relativeAddress.toUInt64

end StackFault

/-! ### Invalid instructions -/

/-- An instruction that cannot be executed. -/
structure InvalidInstruction where
  /-- The short status field, kept as it is given. -/
  statusField : UInt8
deriving DecidableEq, Repr

/-- The record of a status field. -/
def InvalidInstruction.ofArguments (statusField : UInt8) : InvalidInstruction where
  statusField

end ControlWords
