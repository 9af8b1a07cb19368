/-
**Gates.**

A gate is a protected entry point into another bank. Its value holds exactly what the field map
carries, each field at its own width, so two gates are equal exactly when all their fields are.

* `Gate.ofWords` reads every field of five words, and `Gate.toWords` writes every field into five
  words that are zero elsewhere;
* `Gate.decode` reads a buffer of any length, of which only the first five words count, and refuses
  a buffer with fewer.

A gate is written as its five words and read by decoding five words, so that no gate read from text
holds anything outside the field map. An array of any other length is refused.
-/

import ControlWords.Access
import ControlWords.Gate.Field

namespace ControlWords

/-- The level, descriptor index and offset of a target, each of any size. -/
structure TargetAddress where
  level : UInt8 := 0
  index : UInt16 := 0
  offset : UInt32 := 0
deriving DecidableEq, Repr

/-- A protected entry point into another bank: every field of the map at its own width. -/
structure Gate where
  generalEnter : Bool
  specialEnter : Bool
  library : Bool
  gotoInhibit : Bool
  designatorInhibit : Bool
  accessKeyInhibit : Bool
  latentInhibit0 : Bool
  latentInhibit1 : Bool
  accessLock : AccessLock
  targetLevel : BitVec GateField.targetLevel.range.width
  targetIndex : BitVec GateField.targetIndex.range.width
  targetOffset : BitVec GateField.targetOffset.range.width
  baseRegister : BitVec GateField.baseRegister.range.width
  designatorBits : BitVec GateField.designatorBits.range.width
  newAccessKey : AccessKey
  latentParameter0 : Word
  latentParameter1 : Word
deriving DecidableEq, Repr

namespace Gate

/-! ### Gates and their fields -/

/-- The gate whose fields are the low bits of the given values. -/
def ofValues (value : GateField → UInt64) : Gate where
  generalEnter := (value .generalEnter).toBitVec.getLsbD 0
  specialEnter := (value .specialEnter).toBitVec.getLsbD 0
  library := (value .library).toBitVec.getLsbD 0
  gotoInhibit := (value .gotoInhibit).toBitVec.getLsbD 0
  designatorInhibit := (value .designatorInhibit).toBitVec.getLsbD 0
  accessKeyInhibit := (value .accessKeyInhibit).toBitVec.getLsbD 0
  latentInhibit0 := (value .latentInhibit0).toBitVec.getLsbD 0
  latentInhibit1 := (value .latentInhibit1).toBitVec.getLsbD 0
  accessLock := .ofComposite (value .accessLock)
  targetLevel := (value .targetLevel).toBitVec.setWidth _
  targetIndex := (value .targetIndex).toBitVec.setWidth _
  targetOffset := (value .targetOffset).toBitVec.setWidth _
  baseRegister := (value .baseRegister).toBitVec.setWidth _
  designatorBits := (value .designatorBits).toBitVec.setWidth _
  newAccessKey := .ofComposite (value .newAccessKey)
  latentParameter0 := .ofUInt64 (value .latentParameter0)
  latentParameter1 := .ofUInt64 (value .latentParameter1)

/-- The value of a field, right-aligned. -/
def value (gate : Gate) : GateField → UInt64
  | .generalEnter => gate.generalEnter.toUInt64
  | .specialEnter => gate.specialEnter.toUInt64
  | .library => gate.library.toUInt64
  | .gotoInhibit => gate.gotoInhibit.toUInt64
  | .designatorInhibit => gate.designatorInhibit.toUInt64
  | .accessKeyInhibit => gate.accessKeyInhibit.toUInt64
  | .latentInhibit0 => gate.latentInhibit0.toUInt64
  | .latentInhibit1 => gate.latentInhibit1.toUInt64
  | .accessLock => gate.accessLock.toUInt64
  | .targetLevel => UInt64.ofNat gate.targetLevel.toNat
  | .targetIndex => UInt64.ofNat gate.targetIndex.toNat
  | .targetOffset => UInt64.ofNat gate.targetOffset.toNat
  | .baseRegister => UInt64.ofNat gate.baseRegister.toNat
  | .designatorBits => UInt64.ofNat gate.designatorBits.toNat
  | .newAccessKey => gate.newAccessKey.toUInt64
  | .latentParameter0 => gate.latentParameter0.toUInt64
  | .latentParameter1 => gate.latentParameter1.toUInt64

/-! ### Gates and their words -/

/-- The gate that five words hold. -/
def ofWords (words : GateWords) : Gate :=
  ofValues (GateField.load words)

/-- The gate of five words that are given one by one. -/
def ofFiveWords (first second third fourth fifth : Word) : Gate :=
  ofWords #v[first, second, third, fourth, fifth]

/-- Five words with the given fields replaced, one after the other. -/
def storeAll (words : GateWords) (values : List (GateField × UInt64)) : GateWords :=
  values.foldl (fun current (field, value) => field.store current value) words

/-- The fields of a gate with their values, in the order of the map. -/
def values (gate : Gate) : List (GateField × UInt64) :=
  GateField.all.map fun field => (field, gate.value field)

/-- The words of a gate, in which every bit outside the field map is zero. -/
def toWords (gate : Gate) : GateWords :=
  storeAll (Vector.replicate 5 0) gate.values

/-- Why a buffer holds no gate. -/
inductive DecodeError where
  /-- The buffer has fewer words than a gate. -/
  | bufferTooShort (length : Nat)
deriving DecidableEq, Repr

/-- The error in one line, with the number of words that a gate needs. -/
def DecodeError.message : DecodeError → String
  | .bufferTooShort length =>
    s!"gate buffer holds {length} words, at least {gateWordCount} required"

/-- The gate in the first five words of a buffer. -/
def decode : List Word → Except DecodeError Gate
  | first :: second :: third :: fourth :: fifth :: _ =>
    .ok (ofFiveWords first second third fourth fifth)
  | buffer => .error (.bufferTooShort buffer.length)

/-! ### Views of a gate -/

/-- What general access permits: a gate carries the right to enter and no other. -/
def generalPermissions (gate : Gate) : Permissions where
  enter := gate.generalEnter

/-- What special access permits: a gate carries the right to enter and no other. -/
def specialPermissions (gate : Gate) : Permissions where
  enter := gate.specialEnter

/-- Where the gate leads. -/
def target (gate : Gate) : TargetAddress where
  level := UInt8.ofNat gate.targetLevel.toNat
  index := UInt16.ofNat gate.targetIndex.toNat
  offset := UInt32.ofNat gate.targetOffset.toNat

/-- The first base register that basic mode can select. -/
def firstBasicRegister : UInt8 := 12

/-- The number of the base register for basic mode. -/
def baseRegisterIndex (gate : Gate) : UInt8 :=
  UInt8.ofNat gate.baseRegister.toNat + firstBasicRegister

/-- The register that holds the designator bits of the gate and no others. -/
def designator (gate : Gate) : DesignatorRegister where
  word := GateField.designatorBits.range.insert 0 (gate.value .designatorBits)

end Gate

/-! ### Serialized forms -/

instance : JsonCodec TargetAddress where
  encode address := .record
    [("level", JsonCodec.encode address.level), ("bdi", JsonCodec.encode address.index),
      ("offset", JsonCodec.encode address.offset)]
  decode? json := do
    let [level, index, offset] ← json.fields? ["level", "bdi", "offset"] | none
    return {
      level := ← JsonCodec.decode? level
      index := ← JsonCodec.decode? index
      offset := ← JsonCodec.decode? offset }

instance : JsonCodec Gate where
  encode gate := .array (gate.toWords.toList.map JsonCodec.encode)
  decode?
    | .array [first, second, third, fourth, fifth] => do
      return Gate.ofFiveWords (← JsonCodec.decode? first) (← JsonCodec.decode? second)
        (← JsonCodec.decode? third) (← JsonCodec.decode? fourth) (← JsonCodec.decode? fifth)
    | _ => none

end ControlWords
