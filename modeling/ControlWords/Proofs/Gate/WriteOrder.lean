/-
**Writing fields, in any order.**

No bit belongs to two fields of the map, so writes into different fields may be exchanged. A run
that writes no field twice may then be put into any order, and the words of a gate are such a run:

* `GateField.store_comm`: writes into two fields may be exchanged;
* `storeAll_perm`: a run that writes no field twice has the same result in every order;
* `ofWords_storeAll_values`: whatever words the values of a gate are written into hold this gate;
* `written_in_any_order`: so any order of its values gives the words of a gate, and gives them in
  place of what the field map covers of other words.

A program of `setField` steps is a run of writes, so the last writer of each field wins and the
fields do not disturb one another:

* `setFields_last_writer_wins`: this for what the field map reads, for what the decoded gate shows,
  for the bits outside the map and for any two programs that leave the same in every field.
-/

import Mathlib.Data.List.Nodup
import ControlWords.Proofs.Gate.Decoding

namespace ControlWords

namespace GateField

/-- No bit belongs to two fields. -/
theorem Covers.unique {first second : GateField} {slot : Fin 5} {bit : Nat}
    (covers : first.Covers slot bit) (shares : second.Covers slot bit) : first = second := by
  by_contra different
  obtain ⟨inFirst, starts, ends⟩ := covers
  obtain ⟨inSecond, otherStarts, otherEnds⟩ := shares
  have together : first.range.word = second.range.word :=
    congrArg Fin.val (inFirst.trans inSecond.symm)
  have apart := disjoint_of_ne different together
  omega

/-- **Writes into two fields may be exchanged.** -/
theorem store_comm (words : GateWords) {first second : GateField} (different : first ≠ second)
    (value other : UInt64) :
    second.store (first.store words value) other =
      first.store (second.store words other) value := by
  apply words_eq_of_isSet_eq
  intro slot bit
  rw [isSet_store, isSet_store, isSet_store, isSet_store]
  by_cases covered : first.Covers slot bit
  · have free : ¬ second.Covers slot bit := different ∘ covered.unique
    rw [if_neg free, if_pos covered, if_pos covered]
  · rw [if_neg covered, if_neg covered]

end GateField

namespace Gate

open GateField (load Mapped)

/-- **A run that writes no field twice has the same result in every order**: two writes into one
field are the one write of the run, and all others may be exchanged. -/
theorem storeAll_perm {writes order : List (GateField × UInt64)}
    (distinct : (writes.map Prod.fst).Nodup) (reordered : order.Perm writes) (words : GateWords) :
    storeAll words order = storeAll words writes := by
  refine reordered.foldl_eq' (fun first inFirst second inSecond current => ?_) words
  by_cases together : first.1 = second.1
  · have same : first = second := List.inj_on_of_nodup_map distinct
      (reordered.mem_iff.mp inFirst) (reordered.mem_iff.mp inSecond) together
    rw [same]
  · exact GateField.store_comm current together _ _

/-- The values of a gate name every field once. -/
theorem nodup_fst_values (gate : Gate) : (gate.values.map Prod.fst).Nodup := by
  have fields : gate.values.map Prod.fst = GateField.all := rfl
  rw [fields]
  decide

/-- **Words into which the values of a gate are written hold this gate**, whatever they held. -/
theorem ofWords_storeAll_values (words : GateWords) (gate : Gate) :
    ofWords (storeAll words gate.values) = gate := by
  apply eq_of_value_eq
  intro field
  rw [value_ofWords, load_storeAll_values]

/-- **The values of a gate may be written in any order.** Written into five words of zeros they give
the words of the gate. Written into any five words they give the bits of these words that the field
map covers, keep all bits that it does not cover, and decode to the gate. -/
theorem written_in_any_order (gate : Gate) {order : List (GateField × UInt64)}
    (reordered : order.Perm gate.values) :
    storeAll (Vector.replicate 5 0) order = gate.toWords ∧
    ∀ start : GateWords,
      (∀ slot bit, Mapped slot bit →
        ((storeAll start order).get slot).isSet bit = (gate.toWords.get slot).isSet bit) ∧
      (∀ slot bit, ¬ Mapped slot bit →
        ((storeAll start order).get slot).isSet bit = (start.get slot).isSet bit) ∧
      ofWords (storeAll start order) = gate := by
  have inOrder := storeAll_perm gate.nodup_fst_values reordered
  refine ⟨inOrder _, fun start => ⟨?_, fun slot bit => isSet_storeAll start order, ?_⟩⟩
  · apply GateField.forall_load_eq_iff.mp
    intro field
    rw [inOrder, load_storeAll_values, load_toWords]
  · rw [inOrder, ofWords_storeAll_values]

/-- Written backwards into words of ones, the values of a gate leave bit 2 of word 0 set, which no
field covers, and still decode to the gate. -/
theorem written_backwards_into_ones :
    ∃ gate : Gate, gate = ofWords #v[0o440777_600012, 0o512345_654321, 0o000376_400001, 1, 2] ∧
      gate.values.reverse.Perm gate.values ∧ ¬ Mapped 0 2 ∧
      storeAll (Vector.replicate 5 0) gate.values.reverse = gate.toWords ∧
      ((storeAll (Vector.replicate 5 0o777777_777777) gate.values.reverse).get 0).isSet 2 =
        (Vector.get (Vector.replicate 5 (0o777777_777777 : Word)) 0).isSet 2 ∧
      ofWords (storeAll (Vector.replicate 5 0o777777_777777) gate.values.reverse) = gate := by
  refine ⟨ofWords #v[0o440777_600012, 0o512345_654321, 0o000376_400001, 1, 2], rfl, ?_⟩
  have backwards := List.reverse_perm
    (ofWords #v[0o440777_600012, 0o512345_654321, 0o000376_400001, 1, 2]).values
  obtain ⟨fromZeros, into⟩ := written_in_any_order _ backwards
  obtain ⟨_, outside, decoded⟩ := into (Vector.replicate 5 0o777777_777777)
  exact ⟨backwards, by decide, fromZeros, outside 0 2 (by decide), decoded⟩

/-! ### Programs that set fields -/

/-- The steps that write the given values, one after the other. -/
def setFields (writes : List (GateField × UInt64)) : List Step :=
  writes.map fun (field, value) => .setField field value

theorem finalState_setFields (words : GateWords) (writes : List (GateField × UInt64)) :
    finalState Step.run words (setFields writes) = storeAll words writes := by
  rw [finalState, setFields, List.foldl_map]
  rfl

/-- **The last writer of each field wins, and fields are independent.** After a program of writes,
the field map and the decoded gate both show for each field the last value written to it, reduced to
its width, or what the field held at the start; every bit outside the map is as it was at the start;
and two programs that leave the same in every field end in the same words and the same gate, however
their writes are interleaved. -/
theorem setFields_last_writer_wins (words : GateWords) :
    (∀ (writes : List (GateField × UInt64)) (field : GateField),
      (load (finalState Step.run words (setFields writes)) field).toNat =
        valueAfter words writes field ∧
      (ofWords (finalState Step.run words (setFields writes))).fieldView field =
        valueAfter words writes field) ∧
    (∀ (writes : List (GateField × UInt64)) (slot : Fin 5) (bit : Nat), ¬ Mapped slot bit →
      ((finalState Step.run words (setFields writes)).get slot).isSet bit =
        (words.get slot).isSet bit) ∧
    (∀ first second : List (GateField × UInt64),
      (∀ field, valueAfter words first field = valueAfter words second field) →
      finalState Step.run words (setFields first) =
          finalState Step.run words (setFields second) ∧
        ofWords (finalState Step.run words (setFields first)) =
          ofWords (finalState Step.run words (setFields second))) := by
  refine ⟨fun writes field => ?_, fun writes slot bit unmapped => ?_, fun first second same => ?_⟩
  · rw [finalState_setFields, fieldView_eq_toNat_value, value_ofWords]
    exact ⟨toNat_load_storeAll words writes field, toNat_load_storeAll words writes field⟩
  · rw [finalState_setFields]
    exact isSet_storeAll words writes unmapped
  · have words_eq : finalState Step.run words (setFields first) =
        finalState Step.run words (setFields second) := by
      rw [finalState_setFields, finalState_setFields]
      exact storeAll_eq words same
    exact ⟨words_eq, congrArg ofWords words_eq⟩

/-- Writing 9 and then 2 to the three bits of the target level, with a write to the lock between
them, is the same as writing 10 after the lock, and bit 1 of word 0 stays clear. -/
theorem setFields_last_writer_wins_targetLevel :
    ¬ Mapped 0 1 ∧
    ((finalState Step.run (Vector.replicate 5 0)
      (setFields [(.targetLevel, 9), (.accessLock, 5), (.targetLevel, 2)])).get 0).isSet 1 =
        (Vector.get (Vector.replicate 5 (0 : Word)) 0).isSet 1 ∧
    finalState Step.run (Vector.replicate 5 0)
        (setFields [(.targetLevel, 9), (.accessLock, 5), (.targetLevel, 2)]) =
      finalState Step.run (Vector.replicate 5 0)
        (setFields [(.accessLock, 0o1000005), (.targetLevel, 10)]) := by
  obtain ⟨_, outside, independent⟩ := setFields_last_writer_wins (Vector.replicate 5 0)
  refine ⟨by decide, outside _ 0 1 (by decide), (independent _ _ fun field => ?_).1⟩
  cases field <;> rfl

end Gate

end ControlWords
