/-
**The field map of a gate.**

A gate occupies five words. The map gives each of its seventeen fields a run of bits; no other bit
of the five words belongs to the gate. Words of a gate are read and written through the map alone:

* `GateField.load` reads a field of five words, `GateField.store` writes it and keeps all other
  bits.
-/

import ControlWords.BitField.Basic

namespace ControlWords

/-- The number of words of a gate. -/
def gateWordCount : Nat := 5

/-- The words of a gate. -/
abbrev GateWords := Vector Word 5

/-- A field of a gate, named for what its bits say. -/
inductive GateField where
  /-- Whether general access permits entering. -/
  | generalEnter
  /-- Whether special access permits entering. -/
  | specialEnter
  /-- Whether the gate belongs to a library. -/
  | library
  /-- Whether a transfer by goto is inhibited. -/
  | gotoInhibit
  /-- Whether the designator bits are not installed on transfer. -/
  | designatorInhibit
  /-- Whether the access key is not installed on transfer. -/
  | accessKeyInhibit
  /-- Whether latent parameter 0 is not installed on transfer. -/
  | latentInhibit0
  /-- Whether latent parameter 1 is not installed on transfer. -/
  | latentInhibit1
  /-- The lock that a caller's key must fit. -/
  | accessLock
  /-- The level of the target bank. -/
  | targetLevel
  /-- The descriptor index of the target bank. -/
  | targetIndex
  /-- The offset within the target bank. -/
  | targetOffset
  /-- The base register for basic mode, counted from register 12. -/
  | baseRegister
  /-- The designator bits 12 to 17. -/
  | designatorBits
  /-- The access key to install on transfer. -/
  | newAccessKey
  /-- Latent parameter 0. -/
  | latentParameter0
  /-- Latent parameter 1. -/
  | latentParameter1
deriving DecidableEq, Repr

namespace GateField

/-- Every field, in the order of the map. -/
def all : List GateField :=
  [generalEnter, specialEnter, library, gotoInhibit, designatorInhibit, accessKeyInhibit,
    latentInhibit0, latentInhibit1, accessLock, targetLevel, targetIndex, targetOffset,
    baseRegister, designatorBits, newAccessKey, latentParameter0, latentParameter1]

/-- The run of bits of a field. -/
def range : GateField → BitField
  | generalEnter => { word := 0, first := 0, width := 1 }
  | specialEnter => { word := 0, first := 3, width := 1 }
  | library => { word := 0, first := 12, width := 1 }
  | gotoInhibit => { word := 0, first := 13, width := 1 }
  | designatorInhibit => { word := 0, first := 14, width := 1 }
  | accessKeyInhibit => { word := 0, first := 15, width := 1 }
  | latentInhibit0 => { word := 0, first := 16, width := 1 }
  | latentInhibit1 => { word := 0, first := 17, width := 1 }
  | accessLock => { word := 0, first := 18, width := 18 }
  | targetLevel => { word := 1, first := 0, width := 3 }
  | targetIndex => { word := 1, first := 3, width := 15 }
  | targetOffset => { word := 1, first := 18, width := 18 }
  | baseRegister => { word := 2, first := 10, width := 2 }
  | designatorBits => { word := 2, first := 12, width := 6 }
  | newAccessKey => { word := 2, first := 18, width := 18 }
  | latentParameter0 => .wholeWord 3
  | latentParameter1 => .wholeWord 4

/-- The fields with their runs of bits, in order. -/
def map : List (GateField × BitField) :=
  all.map fun field => (field, field.range)

/-- The name of a field in the field map. -/
def name : GateField → String
  | generalEnter => "GeneralAccessEnter"
  | specialEnter => "SpecialAccessEnter"
  | library => "LibFlag"
  | gotoInhibit => "GotoInhibit"
  | designatorInhibit => "DesignatorInhibit"
  | accessKeyInhibit => "AccessKeyInhibit"
  | latentInhibit0 => "LatentParameter0Inhibit"
  | latentInhibit1 => "LatentParameter1Inhibit"
  | accessLock => "AccessLock"
  | targetLevel => "TargetLevel"
  | targetIndex => "TargetBdi"
  | targetOffset => "TargetOffset"
  | baseRegister => "BasicModeBaseRegister"
  | designatorBits => "DesignatorBits"
  | newAccessKey => "NewAccessKey"
  | latentParameter0 => "LatentParameterValue0"
  | latentParameter1 => "LatentParameterValue1"

/-- The field of a name, if there is one. -/
def ofName? (name : String) : Option GateField :=
  all.find? fun field => field.name = name

theorem mem_all (field : GateField) : field ∈ all := by
  cases field <;> decide

/-- Every field lies in one of the five words. -/
theorem word_lt (field : GateField) : field.range.word < 5 := by
  cases field <;> decide

/-- The place of a field's word among the five. -/
def slot (field : GateField) : Fin 5 :=
  ⟨field.range.word, field.word_lt⟩

/-- A field of five words, right-aligned. -/
def load (words : GateWords) (field : GateField) : UInt64 :=
  field.range.extract (words.get field.slot)

/-- Five words with a field replaced by the low bits of a value. -/
def store (words : GateWords) (field : GateField) (value : UInt64) : GateWords :=
  words.set field.range.word (field.range.insert (words.get field.slot) value) field.word_lt

end GateField

end ControlWords
