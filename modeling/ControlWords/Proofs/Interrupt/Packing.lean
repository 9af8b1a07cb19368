/-
**How records are packed.**

A record keeps its arguments, cut down to their places, and what delivery sees of it is packed of
them. Here the packing is followed in numbers, and every shift and every narrowing on the way in
checked arithmetic, so that none of them loses a bit of what a place holds:

* `Checked.violationStatus?_eq`: the status field of a reference violation is packed without fault;
* `Checked.writePair?_eq`: so are two fields into a word of zeros, as in both status words;
* `ReferenceViolation.packs`, `AddressingException.packs` and `StackFault.packs`: what a record
  packs its arguments into, as a number, and that the arguments are unpacked from it;
* `Interrupt.records_pack_and_unpack`: all four records together.
-/

import ControlWords.Interrupt.Lemmas
import ControlWords.Proofs.BitField.Checked
import ControlWords.Proofs.BitField.Laws

namespace ControlWords

/-! ### Packing in checked arithmetic -/

namespace Checked

/-- The byte moved up by fewer than 8 places, if no bit of it is lost. -/
def shiftByteLeft? (value : UInt8) (places : UInt8) : Option UInt8 :=
  if places < 8 ∧ value.toNat * 2 ^ places.toNat < 2 ^ 8 then some (value <<< places) else none

/-- The byte moved down by fewer than 8 places. -/
def shiftByteRight? (value : UInt8) (places : UInt8) : Option UInt8 :=
  if places < 8 then some (value >>> places) else none

/-- The status field of a reference violation: the low two bits of the entry type, moved up, and
the fetch flag in the lowest bit. -/
def violationStatus? (entryType : UInt8) (fetch : Bool) : Option UInt8 := do
  let kept ← lowBits? 2 entryType.toUInt64
  let code ← narrow? 8 kept
  let upper ← shiftByteLeft? (.ofBitVec code) 4
  return if fetch then upper ||| 1 else upper

/-- A word of zeros into which two runs of bits are written, one after the other. -/
def writePair? (first width : UInt32) (value : UInt64) (second secondWidth : UInt32)
    (secondValue : UInt64) : Option Word := do
  let written ← insert? first width 0 value
  insert? second secondWidth written secondValue

/-- **The status field of a reference violation is packed without a fault.** -/
theorem violationStatus?_eq (entryType : UInt8) (fetch : Bool) :
    violationStatus? entryType fetch =
      some (ReferenceViolation.ofArguments entryType fetch).statusField := by
  have code := ReferenceViolation.toNat_entryCode_ofArguments entryType fetch
  have kept : (lowBits 2 entryType.toUInt64).toNat =
      (ReferenceViolation.ofArguments entryType fetch).entryCode.toBitVec.toNat := by
    rw [toNat_lowBits, UInt8.toNat_toUInt64, UInt8.toNat_toBitVec, code]
  have small :
      (ReferenceViolation.ofArguments entryType fetch).entryCode.toNat * 2 ^ 4 < 2 ^ 8 := by
    omega
  have low : lowBits? 2 entryType.toUInt64 = some (lowBits 2 entryType.toUInt64) := lowBits?_eq _ _
  rw [violationStatus?, low, Option.bind_eq_bind, Option.bind_some, narrow?_eq kept,
    Option.bind_eq_bind, Option.bind_some, shiftByteLeft?, if_pos ⟨by decide, small⟩]
  cases fetch
  · exact congrArg some (UInt8.or_zero).symm
  · rfl

/-- **Two accepted runs of bits are written without a fault.** -/
theorem writePair?_eq {word otherWord : Nat} {first width second secondWidth : UInt32}
    {field other : BitField} (accepted : BitField.ofRange word first width = .ok field)
    (otherAccepted : BitField.ofRange otherWord second secondWidth = .ok other)
    (value otherValue : UInt64) :
    writePair? first width value second secondWidth otherValue =
      some (field.pair other value otherValue) := by
  rw [writePair?, BitField.insert?_eq accepted, Option.bind_eq_bind, Option.bind_some,
    BitField.insert?_eq otherAccepted, BitField.pair]

end Checked

/-! ### The records -/

/-- What an interrupt reports to delivery. -/
structure Interrupt.Reports (interrupt : Interrupt) (statusField : UInt8)
    (statusWord0 statusWord1 : Word) : Prop where
  statusField : interrupt.statusField = statusField
  statusWord0 : interrupt.statusWord0 = statusWord0
  statusWord1 : interrupt.statusWord1 = statusWord1

namespace ReferenceViolation

/-- How a reference violation packs an entry type and a flag. -/
structure Packs (entryType : UInt8) (flag : Bool) (record : ReferenceViolation) : Prop where
  statusField : record.statusField.toNat = entryType.toNat % 4 * 16 + flag.toNat
  entryCode : record.entryCode.toNat = entryType.toNat % 4
  fetch : record.fetch = flag
  interrupt : Interrupt.Reports record record.statusField 0 0
  /-- Packing loses no bit of the arguments that are kept. -/
  packed : Checked.violationStatus? entryType flag = some record.statusField
  /-- The arguments are unpacked from the status field. -/
  unpacked : Checked.shiftByteRight? record.statusField 4 = some record.entryCode ∧
    (record.statusField &&& 1 != 0) = record.fetch

theorem toNat_statusField (record : ReferenceViolation) :
    record.statusField.toNat = record.entryCode.toNat * 16 + record.fetch.toNat := by
  obtain ⟨entryType, fetch⟩ := record
  revert entryType fetch
  decide

theorem packs (entryType : UInt8) (flag : Bool) :
    Packs entryType flag (ofArguments entryType flag) where
  statusField := by
    rw [toNat_statusField, toNat_entryCode_ofArguments]
    rfl
  entryCode := toNat_entryCode_ofArguments entryType flag
  fetch := rfl
  interrupt := ⟨rfl, rfl, rfl⟩
  packed := Checked.violationStatus?_eq entryType flag
  unpacked := by
    obtain ⟨code, fetch⟩ := (ofArguments entryType flag).arguments_of_statusField
    refine ⟨?_, fetch⟩
    rw [Checked.shiftByteRight?, if_pos (by decide), code]

end ReferenceViolation

namespace AddressingException

/-- How an addressing exception packs a level and an index. -/
structure Packs (status level : UInt8) (index : UInt16) (record : AddressingException) : Prop where
  statusField : record.statusField = status
  statusWord1 : record.statusWord1.toNat =
    level.toNat % 8 * 2 ^ 33 + index.toNat % 2 ^ 15 * 2 ^ 18
  sourceLevel : record.sourceLevel.toNat = level.toNat % 8
  sourceIndex : record.sourceIndex.toNat = index.toNat % 2 ^ 15
  interrupt : Interrupt.Reports record record.statusField 0 record.statusWord1
  /-- Packing loses no bit of the arguments that are kept. -/
  packed : Checked.writePair? 0 3 level.toUInt64 3 15 index.toUInt64 = some record.statusWord1
  /-- The arguments are unpacked from status word 1. -/
  unpacked : Checked.read? 0 3 8 record.statusWord1 = some record.sourceLevel.toBitVec ∧
    Checked.read? 3 15 16 record.statusWord1 = some record.sourceIndex.toBitVec

theorem ofRange_levelField : BitField.ofRange 1 0 3 = .ok levelField :=
  BitField.ofRange_eq_ok_iff.mpr ⟨rfl, rfl, rfl⟩

theorem ofRange_indexField : BitField.ofRange 1 3 15 = .ok indexField :=
  BitField.ofRange_eq_ok_iff.mpr ⟨rfl, rfl, rfl⟩

/-- Status word 1 is written from the arguments as they are given, which the fields cut down. -/
theorem statusWord1_ofArguments (status level : UInt8) (index : UInt16) :
    (ofArguments status level index).statusWord1 =
      levelField.pair indexField level.toUInt64 index.toUInt64 := by
  apply BitField.pair_eq_of_toNat_eq_mod
  · rw [UInt8.toNat_toUInt64, UInt8.toNat_toUInt64]
    exact toNat_sourceLevel_ofArguments status level index
  · rw [UInt16.toNat_toUInt64, UInt16.toNat_toUInt64]
    exact toNat_sourceIndex_ofArguments status level index

theorem packs (status level : UInt8) (index : UInt16) :
    Packs status level index (ofArguments status level index) where
  statusField := rfl
  statusWord1 := by
    rw [statusWord1_ofArguments, levelField.toNat_pair (by decide)]
    rfl
  sourceLevel := toNat_sourceLevel_ofArguments status level index
  sourceIndex := toNat_sourceIndex_ofArguments status level index
  interrupt := ⟨rfl, rfl, rfl⟩
  packed := by
    rw [statusWord1_ofArguments, Checked.writePair?_eq ofRange_levelField ofRange_indexField]
  unpacked := by
    obtain ⟨readsLevel, readsIndex⟩ := (ofArguments status level index).arguments_of_statusWord1
    refine ⟨BitField.read?_eq ofRange_levelField ?_, BitField.read?_eq ofRange_indexField ?_⟩
    · rw [readsLevel, UInt8.toNat_toUInt64, UInt8.toNat_toBitVec]
    · rw [readsIndex, UInt16.toNat_toUInt64, UInt16.toNat_toBitVec]

end AddressingException

namespace StackFault

/-- How a stack fault packs a base register and a relative address. -/
structure Packs (status register : UInt8) (address : UInt32) (record : StackFault) : Prop where
  statusField : record.statusField = status
  statusWord0 : record.statusWord0.toNat = register.toNat % 64 * 2 ^ 30 + address.toNat % 2 ^ 24
  baseRegister : record.baseRegister.toNat = register.toNat % 64
  relativeAddress : record.relativeAddress.toNat = address.toNat % 2 ^ 24
  interrupt : Interrupt.Reports record record.statusField record.statusWord0 0
  /-- Packing loses no bit of the arguments that are kept. -/
  packed : Checked.writePair? 0 6 register.toUInt64 12 24 address.toUInt64 =
    some record.statusWord0
  /-- The arguments are unpacked from status word 0. -/
  unpacked : Checked.read? 0 6 8 record.statusWord0 = some record.baseRegister.toBitVec ∧
    Checked.read? 12 24 32 record.statusWord0 = some record.relativeAddress.toBitVec

theorem ofRange_registerField : BitField.ofRange 0 0 6 = .ok registerField :=
  BitField.ofRange_eq_ok_iff.mpr ⟨rfl, rfl, rfl⟩

theorem ofRange_addressField : BitField.ofRange 0 12 24 = .ok addressField :=
  BitField.ofRange_eq_ok_iff.mpr ⟨rfl, rfl, rfl⟩

/-- Status word 0 is written from the arguments as they are given, which the fields cut down. -/
theorem statusWord0_ofArguments (status register : UInt8) (address : UInt32) :
    (ofArguments status register address).statusWord0 =
      registerField.pair addressField register.toUInt64 address.toUInt64 := by
  apply BitField.pair_eq_of_toNat_eq_mod
  · rw [UInt8.toNat_toUInt64, UInt8.toNat_toUInt64]
    exact toNat_baseRegister_ofArguments status register address
  · rw [UInt32.toNat_toUInt64, UInt32.toNat_toUInt64]
    exact toNat_relativeAddress_ofArguments status register address

theorem packs (status register : UInt8) (address : UInt32) :
    Packs status register address (ofArguments status register address) where
  statusField := rfl
  statusWord0 := by
    rw [statusWord0_ofArguments, registerField.toNat_pair (by decide),
      UInt8.toNat_toUInt64, UInt32.toNat_toUInt64]
    exact congrArg (_ + ·) (Nat.mul_one _)
  baseRegister := toNat_baseRegister_ofArguments status register address
  relativeAddress := toNat_relativeAddress_ofArguments status register address
  interrupt := ⟨rfl, rfl, rfl⟩
  packed := by
    rw [statusWord0_ofArguments, Checked.writePair?_eq ofRange_registerField ofRange_addressField]
  unpacked := by
    obtain ⟨readsRegister, readsAddress⟩ :=
      (ofArguments status register address).arguments_of_statusWord0
    refine ⟨BitField.read?_eq ofRange_registerField ?_, BitField.read?_eq ofRange_addressField ?_⟩
    · rw [readsRegister, UInt8.toNat_toUInt64, UInt8.toNat_toBitVec]
    · rw [readsAddress, UInt32.toNat_toUInt64, UInt32.toNat_toBitVec]

end StackFault

/-- **Records pack their arguments and are unpacked to them.** Whatever the arguments, the status
field of a reference violation is sixteen times the low two bits of the entry type, and one more for
a fetch. An addressing exception has three bits of the level and fifteen of the index at the top of
status word 1, and a stack fault six bits of the base register at the top of status word 0 and
twenty-four of the relative address at its end. These two and an invalid instruction keep the status
field as it is given, and every other status word is zero. Packing and unpacking have no fault in
checked arithmetic, the views show the arguments, each cut down to its place, and the interrupt
reports what the record holds. -/
theorem Interrupt.records_pack_and_unpack :
    (∀ (entryType : UInt8) (fetch : Bool), ReferenceViolation.Packs entryType fetch
      (ReferenceViolation.ofArguments entryType fetch)) ∧
    (∀ (status level : UInt8) (index : UInt16), AddressingException.Packs status level index
      (AddressingException.ofArguments status level index)) ∧
    (∀ (status register : UInt8) (address : UInt32), StackFault.Packs status register address
      (StackFault.ofArguments status register address)) ∧
    ∀ status : UInt8, (InvalidInstruction.ofArguments status).statusField = status ∧
      Reports (InvalidInstruction.ofArguments status) status 0 0 :=
  ⟨ReferenceViolation.packs, AddressingException.packs, StackFault.packs,
    fun _ => ⟨rfl, rfl, rfl, rfl⟩⟩

end ControlWords
