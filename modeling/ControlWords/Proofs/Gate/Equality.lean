/-
**Which words hold the same gate.**

Two sets of five words hold the same gate exactly when they agree on the mapped bits, and nothing
that is made of a gate tells more or less:

* `ofWords_eq_iff_load` and `ofWords_eq_iff_mapped`: equal gates, by fields and by bits;
* `ofWords_flip_eq_iff`: changing a set of bits keeps the gate exactly when none of them is mapped;
* `equality_decided_by_map`: equal gates, equal fields, equal mapped bits, equal words and equal
  texts are one condition.
-/

import Mathlib.Tactic.TFAE
import ControlWords.Proofs.Json.RoundTrip

namespace ControlWords

namespace GateWords

/-! ### Changing bits -/

/-- Five words with the bits changed that are set in five others. -/
def flip (words changes : GateWords) : GateWords :=
  Vector.zipWith (· ^^^ ·) words changes

/-- Five words in which one bit is set. -/
def single (slot : Fin 5) (bit : Fin 36) : GateWords :=
  Vector.ofFn fun other => if other = slot then BitVec.twoPow 36 (35 - bit) else 0

theorem isSet_flip (words changes : GateWords) (slot : Fin 5) (bit : Nat) :
    ((words.flip changes).get slot).isSet bit =
      ((words.get slot).isSet bit ^^ (changes.get slot).isSet bit) := by
  have combined : (words.flip changes).get slot = words.get slot ^^^ changes.get slot :=
    Vector.getElem_zipWith _
  rw [combined]
  exact BitVec.getMsbD_xor

theorem isSet_single (slot : Fin 5) (bit : Fin 36) (other : Fin 5) (index : Nat) :
    ((single slot bit).get other).isSet index = decide (other = slot ∧ index = bit) := by
  have placed : (single slot bit).get other =
      if other = slot then BitVec.twoPow 36 (35 - bit) else 0 := Vector.getElem_ofFn _
  have inWord := bit.isLt
  rw [placed, Word.isSet]
  by_cases same : other = slot
  · have low : 35 - bit.val < 36 := by omega
    have place : 36 - (35 - bit.val) - 1 = bit.val := by omega
    rw [if_pos same, BitVec.getMsbD_twoPow, decide_eq_true low, Bool.true_and, place]
    simp only [same, true_and]
  · have apart : ¬ (other = slot ∧ index = bit.val) := fun both => same both.1
    rw [if_neg same, decide_eq_false apart]
    exact BitVec.getMsbD_zero

end GateWords

namespace Gate

open GateField (load Mapped)

/-! ### Equal gates -/

theorem ofWords_eq_iff_load {first second : GateWords} :
    ofWords first = ofWords second ↔ ∀ field, load first field = load second field := by
  constructor
  · intro same field
    rw [← value_ofWords, ← value_ofWords, same]
  · intro same
    apply eq_of_value_eq
    intro field
    rw [value_ofWords, value_ofWords, same]

/-- Two sets of five words hold the same gate exactly when they agree on the mapped bits. -/
theorem ofWords_eq_iff_mapped {first second : GateWords} :
    ofWords first = ofWords second ↔
      ∀ slot bit, Mapped slot bit → (first.get slot).isSet bit = (second.get slot).isSet bit :=
  ofWords_eq_iff_load.trans GateField.forall_load_eq_iff

theorem toWords_injective {first second : Gate} (same : first.toWords = second.toWords) :
    first = second := by
  rw [← ofWords_toWords first, ← ofWords_toWords second, same]

/-! ### Changed bits -/

/-- **Changing a set of bits keeps the gate exactly when no mapped bit is in the set.** -/
theorem ofWords_flip_eq_iff {words changes : GateWords} :
    ofWords (words.flip changes) = ofWords words ↔
      ∀ slot bit, Mapped slot bit → (changes.get slot).isSet bit = false := by
  have kept : ∀ bit change : Bool, (bit ^^ change) = bit ↔ change = false := by decide
  rw [ofWords_eq_iff_mapped]
  constructor
  · intro agree slot bit mapped
    have same := agree slot bit mapped
    rw [GateWords.isSet_flip] at same
    exact (kept _ _).mp same
  · intro clear slot bit mapped
    rw [GateWords.isSet_flip]
    exact (kept _ _).mpr (clear slot bit mapped)

/-- Changing one bit changes the gate exactly when the bit is mapped. -/
theorem ofWords_flip_single_ne_iff {words : GateWords} {slot : Fin 5} {bit : Fin 36} :
    ofWords (words.flip (.single slot bit)) ≠ ofWords words ↔ Mapped slot bit := by
  rw [ne_eq, ofWords_flip_eq_iff]
  constructor
  · intro changed
    by_contra unmapped
    refine changed fun other index mapped => ?_
    rw [GateWords.isSet_single]
    refine decide_eq_false fun ⟨sameSlot, sameBit⟩ => ?_
    rw [sameSlot, sameBit] at mapped
    exact unmapped mapped
  · intro mapped kept
    have clear := kept slot bit mapped
    rw [GateWords.isSet_single, decide_eq_true ⟨rfl, rfl⟩] at clear
    cases clear

/-- **Equality of gates is decided by exactly the mapped bits.** For any two sets of five words it
is the same that their gates are equal, that every field reads the same number, that the words agree
on every mapped bit, that the gates are encoded as the same words, and that the gates have the same
text. So changing bits outside the map, however many, never changes the gate, and changing any
single mapped bit always does. -/
theorem equality_decided_by_map :
    (∀ first second : GateWords, List.TFAE [
      ofWords first = ofWords second,
      ∀ field, load first field = load second field,
      ∀ slot bit, Mapped slot bit → (first.get slot).isSet bit = (second.get slot).isSet bit,
      (ofWords first).toWords = (ofWords second).toWords,
      Json.write (ofWords first) = Json.write (ofWords second)]) ∧
    (∀ words changes : GateWords, ofWords (words.flip changes) = ofWords words ↔
      ∀ slot bit, Mapped slot bit → (changes.get slot).isSet bit = false) ∧
    (∀ (words : GateWords) (slot : Fin 5) (bit : Fin 36),
      ofWords (words.flip (.single slot bit)) ≠ ofWords words ↔ Mapped slot bit) := by
  refine ⟨fun first second => ?_, fun _ _ => ofWords_flip_eq_iff,
    fun _ _ _ => ofWords_flip_single_ne_iff⟩
  tfae_have 1 ↔ 2 := ofWords_eq_iff_load
  tfae_have 1 ↔ 3 := ofWords_eq_iff_mapped
  tfae_have 1 → 4 := congrArg toWords
  tfae_have 4 → 1 := toWords_injective
  tfae_have 1 → 5 := congrArg Json.write
  tfae_have 5 → 1 := LawfulCodec.write_injective
  tfae_finish

end Gate

end ControlWords
