/-
**Access control: permissions, locks, keys and the designator register.**

A lock guards a bank or a gate and a key is held by the caller. Both hold a ring, 0 being the most
privileged, and a domain, and both are packed alike into a composite of 18 bits, the ring above the
domain. They are built from numbers of any size by dropping what does not fit.

The designator register is a word whose bits steer the processor. It is kept as that word, each
designator bit at its machine number; the privilege is a field of two bits and the two modes are
single bits.
-/

import ControlWords.BitField.Basic

namespace ControlWords

/-- Which of entering, reading and writing is granted. -/
structure Permissions where
  enter : Bool := false
  read : Bool := false
  write : Bool := false
deriving DecidableEq, Repr

/-- Nothing is granted. -/
def Permissions.denied : Permissions where

/-- What an access value is for. -/
inductive AccessRole where
  /-- Guards a bank or a gate. -/
  | lock
  /-- Is held by the caller. -/
  | key
deriving DecidableEq, Repr

/-- A ring and a domain in the role of a lock or of a key. -/
structure Access (role : AccessRole) where
  /-- The ring, 0 being the most privileged. -/
  ring : BitVec 2 := 0
  domain : BitVec 16 := 0
deriving DecidableEq, Repr

/-- The lock of a bank or a gate. -/
abbrev AccessLock := Access .lock

/-- The key of a caller. -/
abbrev AccessKey := Access .key

namespace Access

variable {role : AccessRole}

/-- The number of bits of a composite. -/
def compositeBits : Nat := 18

/-- The value of a domain and of the low two bits of a ring number. -/
def ofParts (ring : UInt8) (domain : UInt16) : Access role where
  ring := ring.toBitVec.setWidth 2
  domain := domain.toBitVec

/-- The value of the low 18 bits of a composite. -/
def ofComposite (composite : UInt64) : Access role where
  ring := composite.toBitVec.extractLsb' 16 2
  domain := composite.toBitVec.setWidth 16

/-- A 64-bit number stands for the value whose composite it is. -/
instance : Coe UInt64 (Access role) := ⟨ofComposite⟩

/-- The ring above the domain. -/
def composite (access : Access role) : BitVec 18 :=
  access.ring ++ access.domain

/-- The composite as a 64-bit number. -/
def toUInt64 (access : Access role) : UInt64 :=
  UInt64.ofBitVec (access.composite.setWidth 64)

end Access

/-! ### The designator register -/

/-- The contents of a designator register. -/
structure DesignatorRegister where
  word : Word := 0
deriving DecidableEq, Repr

namespace DesignatorRegister

/-- The register of the low 36 bits of a composite. -/
def ofComposite (composite : UInt64) : DesignatorRegister where
  word := Word.ofUInt64 composite

/-- A 64-bit number stands for the register whose composite it is. -/
instance : Coe UInt64 DesignatorRegister := ⟨ofComposite⟩

/-- The bits of the processor privilege. -/
def privilegeField : BitField where
  word := 0
  first := 14
  width := 2

/-- The processor privilege. -/
def privilege (register : DesignatorRegister) : UInt8 :=
  (privilegeField.extract register.word).toUInt8

/-- Whether basic mode is enabled. -/
def basicMode (register : DesignatorRegister) : Bool :=
  register.word.isSet 16

/-- Whether the executive register set is selected. -/
def executiveRegisters (register : DesignatorRegister) : Bool :=
  register.word.isSet 17

end DesignatorRegister

/-! ### Serialized forms -/

instance : JsonCodec Permissions where
  encode permissions := .record
    [("enter", .bool permissions.enter), ("read", .bool permissions.read),
      ("write", .bool permissions.write)]
  decode? json := do
    let [enter, read, write] ← json.fields? ["enter", "read", "write"] | none
    return {
      enter := ← enter.bool?
      read := ← read.bool?
      write := ← write.bool? }

instance (role : AccessRole) : JsonCodec (Access role) where
  encode access := .natural access.composite.toNat
  decode? json := Access.ofComposite <$> JsonCodec.decode? json

instance : JsonCodec DesignatorRegister where
  encode register := JsonCodec.encode register.word
  decode? json := DesignatorRegister.ofComposite <$> JsonCodec.decode? json

end ControlWords
