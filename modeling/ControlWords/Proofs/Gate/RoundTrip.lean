/-
**Decoding a gate and encoding it again.**

A gate is made of the values of its fields, and `toWords` is one run of writes that gives every
field its value. So what is written reads back, and what is read is written back in its place:

* `value_ofWords`: the gate of five words has in each field what the words read there;
* `ofWords_toWords`: no gate loses anything by being encoded;
* `isSet_toWords_ofWords`: five words keep their mapped bits and lose all others;
* `toWords_ofWords_exact`: both directions at once, with the masks of the map.
-/

import ControlWords.Gate.Program
import ControlWords.Proofs.Gate.Fields

namespace ControlWords

namespace Gate

open GateField (load store Mapped coverage)

/-! ### The values of a gate's fields -/

theorem toNat_toUInt64_getLsbD (value : UInt64) :
    (value.toBitVec.getLsbD 0).toUInt64.toNat = value.toNat % 2 ^ 1 := by
  have lowest : value.toBitVec.getLsbD 0 = decide (value.toNat % 2 = 1) := Nat.testBit_zero _
  rw [lowest, Nat.pow_one]
  rcases Nat.mod_two_eq_zero_or_one value.toNat with even | odd
  · rw [even]
    rfl
  · rw [odd]
    rfl

theorem toNat_ofNat_setWidth (value : UInt64) {width : Nat} (narrow : width ≤ 64) :
    (UInt64.ofNat (value.toBitVec.setWidth width).toNat).toNat = value.toNat % 2 ^ width := by
  have small : value.toNat % 2 ^ width < 2 ^ width := Nat.mod_lt _ (Nat.two_pow_pos _)
  have bound : 2 ^ width ≤ 2 ^ 64 := Nat.pow_le_pow_right (by decide) narrow
  rw [BitVec.toNat_setWidth, UInt64.toNat_toBitVec,
    UInt64.toNat_ofNat_of_lt' (Nat.lt_of_lt_of_le small bound)]

/-- Each field of a gate takes from its value as many low bits as the map gives it. -/
theorem toNat_value_ofValues (given : GateField → UInt64) (field : GateField) :
    ((ofValues given).value field).toNat = (given field).toNat % 2 ^ field.range.width := by
  cases field with
  | generalEnter | specialEnter | library | gotoInhibit | designatorInhibit | accessKeyInhibit
  | latentInhibit0 | latentInhibit1 => exact toNat_toUInt64_getLsbD _
  | accessLock | newAccessKey => exact Access.toNat_toUInt64_ofComposite _
  | targetLevel | targetIndex | targetOffset | baseRegister | designatorBits =>
    exact toNat_ofNat_setWidth _ (by decide)
  | latentParameter0 | latentParameter1 =>
    exact (Word.toNat_toUInt64 _).trans (Word.toNat_ofUInt64 _)

theorem toNat_value_lt (gate : Gate) (field : GateField) :
    (gate.value field).toNat < 2 ^ field.range.width := by
  have reduced := toNat_value_ofValues gate.value field
  rw [ofValues_value] at reduced
  rw [reduced]
  exact Nat.mod_lt _ (Nat.two_pow_pos _)

/-- **The gate of five words has in each field what the words read there.** -/
theorem value_ofWords (words : GateWords) (field : GateField) :
    (ofWords words).value field = load words field := by
  apply UInt64.toNat_inj.mp
  rw [ofWords, toNat_value_ofValues, Nat.mod_eq_of_lt (GateField.toNat_load_lt words field)]

theorem eq_of_value_eq {first second : Gate}
    (same : ∀ field, first.value field = second.value field) : first = second := by
  rw [← ofValues_value first, ← ofValues_value second, funext same]

/-! ### The words of a gate -/

theorem lastWrite?_values (gate : Gate) (field : GateField) :
    lastWrite? gate.values field = some (gate.value field) := by
  cases field <;> rfl

/-- The values of a gate are read from the words into which they are written. -/
theorem load_storeAll_values (words : GateWords) (gate : Gate) (field : GateField) :
    load (storeAll words gate.values) field = gate.value field := by
  apply UInt64.toNat_inj.mp
  rw [toNat_load_storeAll, valueAfter, lastWrite?_values]
  exact Nat.mod_eq_of_lt (toNat_value_lt gate field)

theorem load_toWords (gate : Gate) (field : GateField) :
    load gate.toWords field = gate.value field :=
  load_storeAll_values _ gate field

/-- The words of a gate hold nothing outside the map. -/
theorem isSet_toWords_of_not_mapped (gate : Gate) {slot : Fin 5} {bit : Nat}
    (unmapped : ¬ Mapped slot bit) : (gate.toWords.get slot).isSet bit = false := by
  have empty : (Vector.replicate 5 (0 : Word)).get slot = 0 := Vector.getElem_replicate _
  rw [toWords, isSet_storeAll _ _ unmapped, empty]
  exact BitVec.getMsbD_zero

/-- **No gate loses anything by being encoded.** -/
theorem ofWords_toWords (gate : Gate) : ofWords gate.toWords = gate := by
  apply eq_of_value_eq
  intro field
  rw [value_ofWords, load_toWords]

/-- **Five words keep their mapped bits and lose all others** when their gate is encoded. -/
theorem isSet_toWords_ofWords (words : GateWords) (slot : Fin 5) (bit : Nat) :
    ((ofWords words).toWords.get slot).isSet bit =
      (decide (Mapped slot bit) && (words.get slot).isSet bit) := by
  by_cases mapped : Mapped slot bit
  · have fields : ∀ field, load (ofWords words).toWords field = load words field := fun field => by
      rw [load_toWords, value_ofWords]
    rw [GateField.forall_load_eq_iff.mp fields slot bit mapped, decide_eq_true mapped,
      Bool.true_and]
  · rw [isSet_toWords_of_not_mapped _ mapped, decide_eq_false mapped, Bool.false_and]

/-- Encoding the gate of five words masks each word with the union of its fields. -/
theorem get_toWords_ofWords (words : GateWords) (slot : Fin 5) :
    (ofWords words).toWords.get slot = words.get slot &&& coverage slot := by
  apply Word.eq_of_isSet_eq
  intro bit _
  have masked : (words.get slot &&& coverage slot).isSet bit =
      ((words.get slot).isSet bit && (coverage slot).isSet bit) := BitVec.getMsbD_and
  rw [isSet_toWords_ofWords, masked, GateField.isSet_coverage, Bool.and_comm]

/-- **Decoding and encoding are exact on both sides.** Encoding the gate of five words masks each
word with the union of the masks of its fields, so that a mapped bit comes back in its place and any
other bit comes back clear; decoding the words of a gate gives the gate; and normal words are
normal. -/
theorem toWords_ofWords_exact :
    (∀ (words : GateWords) (slot : Fin 5),
      (ofWords words).toWords.get slot = words.get slot &&& coverage slot) ∧
    (∀ (words : GateWords) (slot : Fin 5) (bit : Nat),
      ((ofWords words).toWords.get slot).isSet bit =
        (decide (Mapped slot bit) && (words.get slot).isSet bit)) ∧
    (∀ gate : Gate, ofWords gate.toWords = gate) ∧
    (∀ words : GateWords, normalize (normalize words) = normalize words) := by
  refine ⟨get_toWords_ofWords, isSet_toWords_ofWords, ofWords_toWords, fun words => ?_⟩
  rw [normalize, normalize, ofWords_toWords]

end Gate

end ControlWords
