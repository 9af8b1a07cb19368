/-
**The fields of a gate, and the bits and words that they are written in.**

A bit of the five words is *mapped* when some field of the map covers it. The fields of a word are
apart, so the seventeen fields and the bits that are not mapped make up the five words without
overlap:

* `GateField.toNat_load_store_self` and `GateField.load_store_of_ne`: a field that is written reads
  back the low bits of the value, and no other field changes;
* `isSet_coverage`: the union of the masks of a word's fields has exactly the mapped bits;
* `isSet_store`: writing a field changes the bits that the field covers and no other;
* `load_eq_iff`: a field reads the same exactly when the bits that it covers are the same;
* `words_eq`: five words are determined by their fields and their unmapped bits;
* `Gate.ofValues_value`: a gate is made of the values of its fields.

Writing fields one after the other leaves in each field the last value written to it, cut down to
the field, and in a field that is never written what was there before. Bits that no field covers
stay. Nothing else about a run matters, so its result depends on neither the order of the fields nor
the values that are overwritten:

* `toNat_load_storeAll`: what a field reads after a run;
* `isSet_storeAll`: the unmapped bits after a run;
* `storeAll_eq`: two runs that leave the same in every field end in the same words.
-/

import Mathlib.Data.List.Induction
import ControlWords.Gate.Basic
import ControlWords.Proofs.Access.Composites
import ControlWords.Proofs.BitField.Reading

namespace ControlWords

namespace GateField

/-! ### Writing a field -/

/-- Two fields of one word share no bit. -/
theorem disjoint_of_ne {first second : GateField} (different : first ≠ second)
    (together : first.range.word = second.range.word) :
    first.range.last < second.range.first ∨ second.range.last < first.range.first := by
  revert different together
  cases first <;> cases second <;> decide

/-- The word of a field after the field is written. -/
theorem get_slot_store_self (words : GateWords) (field : GateField) (value : UInt64) :
    (field.store words value).get field.slot =
      field.range.insert (words.get field.slot) value := by
  have inside := field.word_lt
  show (words.set field.range.word _ inside)[field.range.word] = _
  rw [Vector.getElem_set_self]

/-- Another word after a field is written. -/
theorem get_store_of_ne (words : GateWords) (field : GateField) (value : UInt64) {slot : Fin 5}
    (different : field.slot ≠ slot) : (field.store words value).get slot = words.get slot := by
  have apart : field.range.word ≠ slot.val := fun same => different (Fin.ext same)
  show (words.set field.range.word _ field.word_lt)[slot.val] = words[slot.val]
  rw [Vector.getElem_set_ne _ _ apart]

/-- A field that is written reads back the low bits of the value. -/
theorem toNat_load_store_self (words : GateWords) (field : GateField) (value : UInt64) :
    (field.load (field.store words value)).toNat = value.toNat % 2 ^ field.range.width := by
  rw [load, get_slot_store_self, BitField.toNat_extract_insert]

/-- A field reads as before after another field is written: in one word the two runs of bits are
apart, and another word is not touched. -/
theorem load_store_of_ne (words : GateWords) {field other : GateField} (value : UInt64)
    (different : field ≠ other) : other.load (field.store words value) = other.load words := by
  by_cases together : field.slot = other.slot
  · have sameWord : field.range.word = other.range.word := congrArg Fin.val together
    have written := get_slot_store_self words field value
    rw [together] at written
    rw [load, load, written]
    exact BitField.extract_insert_of_disjoint _ _ _ _ (disjoint_of_ne different sameWord)
  · rw [load, load, get_store_of_ne words field value together]

/-! ### Mapped bits -/

/-- A field covers the bits of its run in its own word. -/
def Covers (field : GateField) (slot : Fin 5) (bit : Nat) : Prop :=
  field.slot = slot ∧ field.range.first ≤ bit ∧ bit ≤ field.range.last

instance (field : GateField) (slot : Fin 5) (bit : Nat) : Decidable (field.Covers slot bit) :=
  inferInstanceAs (Decidable (_ ∧ _))

/-- Some field of the map covers the bit. -/
def Mapped (slot : Fin 5) (bit : Nat) : Prop :=
  ∃ field : GateField, field.Covers slot bit

theorem mapped_iff_mem_all {slot : Fin 5} {bit : Nat} :
    (∃ field ∈ all, field.Covers slot bit) ↔ Mapped slot bit :=
  ⟨fun ⟨field, _, covers⟩ => ⟨field, covers⟩, fun ⟨field, covers⟩ => ⟨field, mem_all field, covers⟩⟩

instance (slot : Fin 5) (bit : Nat) : Decidable (Mapped slot bit) :=
  decidable_of_iff _ mapped_iff_mem_all

/-! ### The union of the masks -/

/-- The union of the masks in place of the map's entries for a word. -/
def coverage (slot : Fin 5) : Word :=
  (map.filter fun entry => entry.2.word = slot.val).foldl
    (fun mask entry => mask ||| Word.ofUInt64 entry.2.inPlaceMask) 0

theorem isSet_foldl_or (entries : List (GateField × BitField)) (mask : Word) (bit : Nat) :
    (entries.foldl (fun mask entry => mask ||| Word.ofUInt64 entry.2.inPlaceMask) mask).isSet bit =
      (mask.isSet bit || entries.any fun entry =>
        decide (entry.2.first ≤ bit ∧ bit ≤ entry.2.last)) := by
  induction entries generalizing mask with
  | nil => simp
  | cons entry entries ih =>
    have united : (mask ||| Word.ofUInt64 entry.2.inPlaceMask).isSet bit =
        (mask.isSet bit || (Word.ofUInt64 entry.2.inPlaceMask).isSet bit) := BitVec.getMsbD_or
    rw [List.foldl_cons, ih, united, BitField.isSet_inPlaceMask, List.any_cons, Bool.or_assoc]

/-- **The union of the masks of a word has exactly its mapped bits.** -/
theorem isSet_coverage (slot : Fin 5) (bit : Nat) :
    (coverage slot).isSet bit = decide (Mapped slot bit) := by
  have empty : (0 : Word).isSet bit = false := BitVec.getMsbD_zero
  rw [coverage, isSet_foldl_or, empty, Bool.false_or, Bool.eq_iff_iff, List.any_eq_true,
    decide_eq_true_iff]
  constructor
  · rintro ⟨entry, member, within⟩
    obtain ⟨listed, together⟩ := List.mem_filter.mp member
    obtain ⟨field, _, rfl⟩ := List.mem_map.mp listed
    exact ⟨field, Fin.ext (of_decide_eq_true together), of_decide_eq_true within⟩
  · rintro ⟨field, together, within⟩
    refine ⟨(field, field.range), List.mem_filter.mpr ⟨?_, ?_⟩, decide_eq_true within⟩
    · exact List.mem_map.mpr ⟨field, mem_all field, rfl⟩
    · exact decide_eq_true (congrArg Fin.val together)

/-! ### Fields and bits of five words -/

/-- Writing a field sets the bits that it covers from the value and keeps every other bit. -/
theorem isSet_store (words : GateWords) (field : GateField) (value : UInt64) (slot : Fin 5)
    (bit : Nat) :
    ((field.store words value).get slot).isSet bit =
      if field.Covers slot bit then
        value.toNat.testBit (field.range.last - bit)
      else
        (words.get slot).isSet bit := by
  by_cases together : field.slot = slot
  · subst together
    rw [get_slot_store_self, BitField.isSet_insert]
    simp only [Covers, true_and]
  · rw [get_store_of_ne words field value together, if_neg fun covers => together covers.1]

/-- **A field reads the same exactly when the bits that it covers are the same.** -/
theorem load_eq_iff {field : GateField} {first second : GateWords} :
    field.load first = field.load second ↔
      ∀ slot bit, field.Covers slot bit →
        (first.get slot).isSet bit = (second.get slot).isSet bit := by
  rw [load, load, BitField.extract_eq_iff]
  constructor
  · rintro same _ bit ⟨rfl, starts, ends⟩
    exact same bit starts ends
  · intro agree bit starts ends
    exact agree field.slot bit ⟨rfl, starts, ends⟩

/-- All fields read the same exactly when all mapped bits are the same. -/
theorem forall_load_eq_iff {first second : GateWords} :
    (∀ field : GateField, field.load first = field.load second) ↔
      ∀ slot bit, Mapped slot bit → (first.get slot).isSet bit = (second.get slot).isSet bit := by
  constructor
  · rintro same slot bit ⟨field, covers⟩
    exact load_eq_iff.mp (same field) slot bit covers
  · intro agree field
    exact load_eq_iff.mpr fun slot bit covers => agree slot bit ⟨field, covers⟩

theorem words_eq_of_isSet_eq {first second : GateWords}
    (same : ∀ slot bit, (first.get slot).isSet bit = (second.get slot).isSet bit) :
    first = second := by
  apply Vector.ext
  intro index inside
  exact Word.eq_of_isSet_eq fun bit _ => same ⟨index, inside⟩ bit

/-- **Five words are determined by their fields and their unmapped bits.** -/
theorem words_eq {first second : GateWords}
    (fields : ∀ field : GateField, field.load first = field.load second)
    (others : ∀ slot bit, ¬ Mapped slot bit →
      (first.get slot).isSet bit = (second.get slot).isSet bit) : first = second := by
  apply words_eq_of_isSet_eq
  intro slot bit
  by_cases mapped : Mapped slot bit
  · exact forall_load_eq_iff.mp fields slot bit mapped
  · exact others slot bit mapped

theorem toNat_load_lt (words : GateWords) (field : GateField) :
    (field.load words).toNat < 2 ^ field.range.width :=
  BitField.toNat_extract_lt _ _

end GateField

namespace Gate

/-! ### The values of a gate -/

/-- A truth value is the low bit of its number. -/
theorem getLsbD_toUInt64 (flag : Bool) : flag.toUInt64.toBitVec.getLsbD 0 = flag := by
  cases flag <;> decide

/-- A bit string is the low bits of its number. -/
theorem setWidth_ofNat_toNat {width : Nat} (bits : BitVec width) (narrow : width ≤ 64) :
    (UInt64.ofNat bits.toNat).toBitVec.setWidth width = bits :=
  setWidth_eq_of_toNat_eq bits (toNat_uint64_of_narrow bits narrow)

/-- A gate is made of the values of its fields. -/
theorem ofValues_value (gate : Gate) : ofValues gate.value = gate := by
  obtain ⟨general, special, library, goto, designator, key, first, second, lock, level, index,
    offset, register, bits, newKey, zero, one⟩ := gate
  simp only [ofValues, value, Gate.mk.injEq, getLsbD_toUInt64, Access.ofComposite_toUInt64,
    Word.ofUInt64_toUInt64, true_and]
  refine ⟨?_, ?_, ?_, ?_, ?_, trivial⟩
  all_goals exact setWidth_ofNat_toNat _ (by decide)

/-! ### Runs of writes -/

open GateField (load store Mapped)

/-- The value last written to a field in a run of writes, if any is. -/
def lastWrite? (writes : List (GateField × UInt64)) (field : GateField) : Option UInt64 :=
  writes.reverse.lookup field

/-- What a run of writes leaves in a field: the last value written to it, reduced to the width of
the field, or what the field holds at the start. -/
def valueAfter (words : GateWords) (writes : List (GateField × UInt64)) (field : GateField) : Nat :=
  match lastWrite? writes field with
  | some value => value.toNat % 2 ^ field.range.width
  | none => (load words field).toNat

variable (words : GateWords) (writes : List (GateField × UInt64))

/-! ### One more write -/

theorem storeAll_append (field : GateField) (value : UInt64) :
    storeAll words (writes ++ [(field, value)]) = store (storeAll words writes) field value := by
  rw [storeAll, List.foldl_append]
  rfl

theorem lastWrite?_append (field : GateField) (value : UInt64) (other : GateField) :
    lastWrite? (writes ++ [(field, value)]) other =
      if field = other then some value else lastWrite? writes other := by
  rw [lastWrite?, List.reverse_append, List.reverse_singleton, List.singleton_append,
    List.lookup_cons]
  by_cases same : field = other
  · rw [if_pos same, same, beq_self_eq_true]
  · rw [if_neg same, beq_false_of_ne fun equal => same equal.symm]
    rfl

theorem valueAfter_append (field : GateField) (value : UInt64) (other : GateField) :
    valueAfter words (writes ++ [(field, value)]) other =
      if field = other then value.toNat % 2 ^ other.range.width
      else valueAfter words writes other := by
  rw [valueAfter, lastWrite?_append]
  by_cases same : field = other
  · rw [if_pos same, if_pos same]
  · rw [if_neg same, if_neg same]
    rfl

/-! ### A whole run -/

/-- **After a run of writes a field reads what was last written to it**, reduced to its width. Taken
apart at its end, a run has the write that counts first. -/
theorem toNat_load_storeAll (field : GateField) :
    (load (storeAll words writes) field).toNat = valueAfter words writes field := by
  induction writes using List.reverseRecOn with
  | nil => rfl
  | append_singleton writes write ih =>
    obtain ⟨written, value⟩ := write
    rw [storeAll_append, valueAfter_append]
    by_cases same : written = field
    · subst same
      rw [if_pos rfl, GateField.toNat_load_store_self]
    · rw [if_neg same, GateField.load_store_of_ne _ _ same, ih]

/-- **A run of writes keeps every bit that no field covers.** -/
theorem isSet_storeAll {slot : Fin 5} {bit : Nat} (unmapped : ¬ Mapped slot bit) :
    ((storeAll words writes).get slot).isSet bit = (words.get slot).isSet bit := by
  induction writes using List.reverseRecOn with
  | nil => rfl
  | append_singleton writes write ih =>
    obtain ⟨written, value⟩ := write
    rw [storeAll_append, GateField.isSet_store, if_neg fun covers => unmapped ⟨written, covers⟩, ih]

/-- **Two runs that leave the same in every field end in the same words.** -/
theorem storeAll_eq {first second : List (GateField × UInt64)}
    (same : ∀ field, valueAfter words first field = valueAfter words second field) :
    storeAll words first = storeAll words second := by
  apply GateField.words_eq
  · intro field
    apply UInt64.toNat_inj.mp
    rw [toNat_load_storeAll, toNat_load_storeAll, same]
  · intro slot bit unmapped
    rw [isSet_storeAll words first unmapped, isSet_storeAll words second unmapped]

end Gate

end ControlWords
