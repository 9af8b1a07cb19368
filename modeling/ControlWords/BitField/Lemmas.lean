/-
**Words and fields, in numbers and in bits.**

* `Word.toNat_ofUInt64` and `Word.toNat_toUInt64`: a word is made of the low 36 bits of a value and
  stands for the value of the same number;
* `toNat_lowBits`: keeping low bits is taking the remainder by a power of two, for every width;
* `toNat_uint8_of_narrow` and its like: a narrow field loses no bit in a wider number;
* `ofRange_eq_ok_iff`: a run of bits makes the field of that run, if it makes one;
* `toNat_extract`: reading a field is dividing by one power of two and taking the remainder by
  another;
* `isSet_insert`: writing a field sets each of its bits from the value and keeps every other bit;
* `toNat_extract_insert` and `extract_insert_of_disjoint`: what was written is read back, and a
  field that shares no bit with it reads as before;
* `insert_congr`: what does not fit in a field makes no difference to a write;
* `extract_pair`, `eq_of_pair_eq` and `pair_eq_of_toNat_eq_mod`: two values that fit two fields of a
  word of zeros are read back, are told apart by the word, and are what is left of larger ones.
-/

import Mathlib.Algebra.Group.Nat.Defs
import ControlWords.BitField.Basic

namespace ControlWords

/-! ### Words and their numbers -/

namespace Word

@[simp] theorem toNat_ofUInt64 (value : UInt64) :
    (ofUInt64 value).toNat = value.toNat % 2 ^ 36 := by
  simp [ofUInt64]

/-- A word has room for every number of 32 bits. -/
@[simp] theorem toNat_ofUInt32 (value : UInt32) : (ofUInt32 value).toNat = value.toNat := by
  have small : value.toNat < 2 ^ 32 := value.toNat_lt
  rw [ofUInt32, BitVec.toNat_setWidth, UInt32.toNat_toBitVec, Nat.mod_eq_of_lt (by omega)]

@[simp] theorem toNat_toUInt64 (word : Word) : word.toUInt64.toNat = word.toNat := by
  have small : word.toNat < 2 ^ 36 := word.isLt
  simp only [toUInt64, UInt64.toNat_ofBitVec, BitVec.toNat_setWidth]
  omega

/-- A word is its own low 36 bits. -/
@[simp] theorem ofUInt64_toUInt64 (word : Word) : ofUInt64 word.toUInt64 = word := by
  have small : word.toNat < 2 ^ 36 := word.isLt
  apply BitVec.eq_of_toNat_eq
  simp only [toNat_ofUInt64, toNat_toUInt64]
  omega

/-- The bits from 36 on are never set. -/
theorem isSet_of_le (word : Word) {bit : Nat} (beyond : 36 ≤ bit) : word.isSet bit = false :=
  BitVec.getMsbD_of_ge _ _ beyond

end Word

/-! ### Low bits -/

/-- A power of two below `2 ^ 64` survives the shift that makes it. -/
theorem toNat_one_shiftLeft {width : Nat} (narrow : width < 64) :
    ((1 : UInt64) <<< UInt64.ofNat width).toNat = 2 ^ width := by
  have size : UInt64.size = 2 ^ 64 := rfl
  have power : 2 ^ width < 2 ^ 64 := Nat.pow_lt_pow_right (by decide) narrow
  rw [UInt64.toNat_shiftLeft, UInt64.toNat_ofNat_of_lt' (by omega), Nat.mod_eq_of_lt narrow,
    Nat.shiftLeft_eq, UInt64.toNat_one, Nat.one_mul, Nat.mod_eq_of_lt power]

/-- The low bits of a value are its remainder by a power of two, since one less than the power is
the mask of these bits. -/
@[simp] theorem toNat_lowBits (width : Nat) (value : UInt64) :
    (lowBits width value).toNat = value.toNat % 2 ^ width := by
  unfold lowBits
  split
  · rename_i wide
    have small : value.toNat < 2 ^ 64 := value.toNat_lt
    rw [Nat.mod_eq_of_lt (Nat.lt_of_lt_of_le small (Nat.pow_le_pow_right (by decide) wide))]
  · rename_i wide
    have shifted := toNat_one_shiftLeft (Nat.lt_of_not_le wide)
    rw [UInt64.toNat_and, UInt64.toNat_sub_of_le, shifted, UInt64.toNat_one,
      Nat.and_two_pow_sub_one_eq_mod]
    rw [UInt64.le_iff_toNat_le, shifted, UInt64.toNat_one]
    exact Nat.two_pow_pos width

/-! ### Narrow fields in wider numbers -/

section Narrow

variable {width : Nat} (bits : BitVec width)

theorem toNat_uint8_of_narrow (narrow : width ≤ 8) : (UInt8.ofNat bits.toNat).toNat = bits.toNat :=
  UInt8.toNat_ofNat_of_lt'
    (Nat.lt_of_lt_of_le bits.isLt (Nat.pow_le_pow_right (by decide) narrow))

theorem toNat_uint16_of_narrow (narrow : width ≤ 16) :
    (UInt16.ofNat bits.toNat).toNat = bits.toNat :=
  UInt16.toNat_ofNat_of_lt'
    (Nat.lt_of_lt_of_le bits.isLt (Nat.pow_le_pow_right (by decide) narrow))

theorem toNat_uint32_of_narrow (narrow : width ≤ 32) :
    (UInt32.ofNat bits.toNat).toNat = bits.toNat :=
  UInt32.toNat_ofNat_of_lt'
    (Nat.lt_of_lt_of_le bits.isLt (Nat.pow_le_pow_right (by decide) narrow))

theorem toNat_uint64_of_narrow (narrow : width ≤ 64) :
    (UInt64.ofNat bits.toNat).toNat = bits.toNat :=
  UInt64.toNat_ofNat_of_lt'
    (Nat.lt_of_lt_of_le bits.isLt (Nat.pow_le_pow_right (by decide) narrow))

/-- A wider number that holds just the bits of a field is cut down to them. -/
theorem setWidth_eq_of_toNat_eq {wide : Nat} {number : BitVec wide}
    (same : number.toNat = bits.toNat) : number.setWidth width = bits := by
  apply BitVec.eq_of_toNat_eq
  rw [BitVec.toNat_setWidth, same, Nat.mod_eq_of_lt bits.isLt]

/-- Numbers are cut down to the same bits exactly when they have the same remainder. -/
theorem setWidth_eq_setWidth_iff {wide : Nat} {first second : BitVec wide} :
    first.setWidth width = second.setWidth width ↔
      first.toNat % 2 ^ width = second.toNat % 2 ^ width := by
  rw [← BitVec.toNat_inj, BitVec.toNat_setWidth, BitVec.toNat_setWidth]

end Narrow

namespace BitField

/-! ### Ranges -/

/-- A run of bits makes the field of that run and no other. -/
theorem ofRange_eq_ok_iff {word : Nat} {first width : UInt32} {field : BitField} :
    ofRange word first width = .ok field ↔
      field.word = word ∧ field.first = first.toNat ∧ field.width = width.toNat := by
  constructor
  · intro accepted
    unfold ofRange at accepted
    split at accepted
    · cases accepted
      exact ⟨rfl, rfl, rfl⟩
    · cases accepted
  · rintro ⟨rfl, sameFirst, sameWidth⟩
    have positive := field.width_pos
    have inside := field.inside
    have whole : (36 : UInt32).toNat = 36 := rfl
    have before : first < 36 := by
      rw [UInt32.lt_iff_toNat_lt]
      omega
    have bounded : 0 < width ∧ first < 36 ∧ width ≤ 36 - first := by
      refine ⟨?_, before, ?_⟩
      · rw [UInt32.lt_iff_toNat_lt, UInt32.toNat_zero]
        omega
      · rw [UInt32.le_iff_toNat_le, UInt32.toNat_sub_of_le _ _ (UInt32.le_of_lt before)]
        omega
    obtain ⟨word, _, _, _⟩ := field
    cases sameFirst
    cases sameWidth
    exact dif_pos bounded

/-- **A run of bits is accepted exactly when it holds a bit and ends within the word.** -/
theorem exists_ofRange_eq_ok_iff {word : Nat} {first width : UInt32} :
    (∃ field, ofRange word first width = .ok field) ↔
      1 ≤ width.toNat ∧ first.toNat + width.toNat ≤ 36 := by
  constructor
  · rintro ⟨field, accepted⟩
    obtain ⟨_, sameFirst, sameWidth⟩ := ofRange_eq_ok_iff.mp accepted
    rw [← sameFirst, ← sameWidth]
    exact ⟨field.width_pos, field.inside⟩
  · rintro ⟨positive, inside⟩
    have fits : fitsWord first.toNat width.toNat = true :=
      Bool.and_eq_true_iff.mpr ⟨decide_eq_true positive, decide_eq_true inside⟩
    exact ⟨⟨word, first.toNat, width.toNat, fits⟩, ofRange_eq_ok_iff.mpr ⟨rfl, rfl, rfl⟩⟩

variable (field : BitField)

/-! ### Reading and writing -/

/-- The field and the bits before and after it make up the word. -/
theorem first_add_width_add_shift : field.first + field.width + field.shift = 36 := by
  have inside := field.inside
  unfold shift
  omega

/-- The last bit of a field is counted from its first. -/
theorem last_add_one : field.last + 1 = field.first + field.width := by
  have positive := field.width_pos
  unfold last
  omega

/-- The mask holds one bit for each bit of the field. -/
theorem toNat_mask : field.mask.toNat = 2 ^ field.width - 1 := by
  have total := field.first_add_width_add_shift
  have ones : (~~~(0 : UInt64)).toNat = 2 ^ 64 - 1 := by decide
  rw [mask, toNat_lowBits, ones]
  apply Nat.eq_of_testBit_eq
  intro bit
  rw [Nat.testBit_mod_two_pow, Nat.testBit_two_pow_sub_one, Nat.testBit_two_pow_sub_one]
  by_cases within : bit < field.width
  · have small : bit < 64 := by omega
    simp [within, small]
  · simp [within]

/-- The shift of a field is the same as a 64-bit value. -/
theorem toNat_shift : (UInt64.ofNat field.shift).toNat = field.shift := by
  have total := field.first_add_width_add_shift
  have size : UInt64.size = 2 ^ 64 := rfl
  exact UInt64.toNat_ofNat_of_lt' (by omega)

/-- Reading a field drops the bits after it and then the bits before it. -/
theorem toNat_extract (target : Word) :
    (field.extract target).toNat = target.toNat / 2 ^ field.shift % 2 ^ field.width := by
  have total := field.first_add_width_add_shift
  have small : field.shift < 64 := by omega
  rw [extract, UInt64.toNat_and, UInt64.toNat_shiftRight, toNat_shift, toNat_mask,
    Word.toNat_toUInt64, Nat.mod_eq_of_lt small, Nat.shiftRight_eq_div_pow,
    Nat.and_two_pow_sub_one_eq_mod]

/-- A value moved to the place of a field loses no bit on the way. -/
theorem toNat_and_mask_shiftLeft (value : UInt64) :
    ((value &&& field.mask) <<< UInt64.ofNat field.shift).toNat =
      value.toNat % 2 ^ field.width * 2 ^ field.shift := by
  have total := field.first_add_width_add_shift
  have small : field.shift < 64 := by omega
  have bound : value.toNat % 2 ^ field.width < 2 ^ field.width :=
    Nat.mod_lt _ (Nat.two_pow_pos _)
  have product : value.toNat % 2 ^ field.width * 2 ^ field.shift <
      2 ^ field.width * 2 ^ field.shift :=
    Nat.mul_lt_mul_of_pos_right bound (Nat.two_pow_pos _)
  have fits : 2 ^ field.width * 2 ^ field.shift ≤ 2 ^ 64 := by
    rw [← Nat.pow_add]
    exact Nat.pow_le_pow_right (by decide) (by omega)
  rw [UInt64.toNat_shiftLeft, UInt64.toNat_and, toNat_shift, toNat_mask,
    Nat.and_two_pow_sub_one_eq_mod, Nat.mod_eq_of_lt small, Nat.shiftLeft_eq]
  exact Nat.mod_eq_of_lt (Nat.lt_of_lt_of_le product fits)

/-- The mask in place is the right-aligned mask moved up. -/
theorem toNat_inPlaceMask :
    field.inPlaceMask.toNat = (2 ^ field.width - 1) * 2 ^ field.shift := by
  have total := field.first_add_width_add_shift
  have moved := field.toNat_and_mask_shiftLeft field.mask
  have positive : 0 < 2 ^ field.width := Nat.two_pow_pos _
  have own : field.mask &&& field.mask = field.mask := by simp
  rw [own, toNat_mask, Nat.mod_eq_of_lt (by omega)] at moved
  exact moved

/-- A bit of the mask in place belongs to the field. -/
theorem testBit_inPlaceMask (bit : Nat) :
    field.inPlaceMask.toNat.testBit bit =
      decide (field.shift ≤ bit ∧ bit < field.shift + field.width) := by
  rw [toNat_inPlaceMask, Nat.testBit_mul_two_pow, Nat.testBit_two_pow_sub_one]
  by_cases below : field.shift ≤ bit
  · have same : bit - field.shift < field.width ↔ bit < field.shift + field.width := by omega
    simp [below, same]
  · simp [below]

/-- A complement has the bits that the value has not. -/
theorem testBit_not (value : UInt64) (bit : Nat) :
    (~~~value).toNat.testBit bit = (decide (bit < 64) && !value.toNat.testBit bit) := by
  show (~~~value.toBitVec).getLsbD bit = (decide (bit < 64) && !value.toBitVec.getLsbD bit)
  exact BitVec.getLsbD_not

/-- A bit of a merged value, counted from the least significant, is the value's within the field and
the word's outside. -/
theorem testBit_merge (target : Word) (value : UInt64) (bit : Nat) :
    (field.merge target value).toNat.testBit bit =
      if field.shift ≤ bit ∧ bit < field.shift + field.width then
        value.toNat.testBit (bit - field.shift)
      else
        target.toNat.testBit bit := by
  have total := field.first_add_width_add_shift
  have small : target.toNat < 2 ^ 64 := Nat.lt_of_lt_of_le target.isLt (by decide)
  rw [merge, UInt64.toNat_or, UInt64.toNat_and, toNat_and_mask_shiftLeft, Nat.testBit_or,
    Nat.testBit_and, Word.toNat_toUInt64, Nat.testBit_mul_two_pow, Nat.testBit_mod_two_pow,
    testBit_not, testBit_inPlaceMask]
  by_cases within : field.shift ≤ bit ∧ bit < field.shift + field.width
  · have below : bit - field.shift < field.width := by omega
    simp [within, below]
  · by_cases reached : field.shift ≤ bit
    · have beyond : ¬ bit - field.shift < field.width := by omega
      by_cases wide : bit < 64
      · simp [within, beyond, wide]
      · have clear : target.toNat.testBit bit = false :=
          Nat.testBit_lt_two_pow (Nat.lt_of_lt_of_le small
            (Nat.pow_le_pow_right (by decide) (by omega)))
        simp [within, beyond, clear]
    · have wide : bit < 64 := by omega
      simp [reached, wide]

/-- A merged value needs no truncation to be a word. -/
theorem merge_lt (target : Word) (value : UInt64) :
    (field.merge target value).toNat < 2 ^ 36 := by
  have total := field.first_add_width_add_shift
  apply Nat.lt_pow_two_of_testBit
  intro bit beyond
  have outside : ¬ (field.shift ≤ bit ∧ bit < field.shift + field.width) := by omega
  rw [testBit_merge, if_neg outside]
  exact Nat.testBit_lt_two_pow (Nat.lt_of_lt_of_le target.isLt
    (Nat.pow_le_pow_right (by decide) beyond))

/-- The number of a written word is the merged value. -/
theorem toNat_insert (target : Word) (value : UInt64) :
    (field.insert target value).toNat = (field.merge target value).toNat := by
  rw [insert, Word.toNat_ofUInt64, Nat.mod_eq_of_lt (field.merge_lt target value)]

/-- Writing a field sets its bits from the value, most significant first, and keeps the others. The
machine bit `bit` is bit `35 - bit` from the least significant. -/
theorem isSet_insert (target : Word) (value : UInt64) (bit : Nat) :
    (field.insert target value).isSet bit =
      if field.first ≤ bit ∧ bit ≤ field.last then
        value.toNat.testBit (field.last - bit)
      else
        target.isSet bit := by
  have total := field.first_add_width_add_shift
  have ends := field.last_add_one
  by_cases inWord : bit < 36
  · have place : 35 - bit < 36 := by omega
    have same : (field.first ≤ bit ∧ bit ≤ field.last) ↔
        (field.shift ≤ 35 - bit ∧ 35 - bit < field.shift + field.width) := by omega
    have index : 35 - bit - field.shift = field.last - bit := by omega
    show BitVec.getMsbD _ bit = _
    rw [Word.isSet, BitVec.getMsbD_eq_getLsbD, BitVec.getMsbD_eq_getLsbD]
    show (decide (bit < 36) && (field.insert target value).toNat.testBit (36 - 1 - bit)) =
      if field.first ≤ bit ∧ bit ≤ field.last then value.toNat.testBit (field.last - bit)
      else (decide (bit < 36) && target.toNat.testBit (36 - 1 - bit))
    rw [toNat_insert, testBit_merge]
    simp only [inWord, decide_true, Bool.true_and, same, index]
  · have beyond : 36 ≤ bit := by omega
    have outside : ¬ (field.first ≤ bit ∧ bit ≤ field.last) := by omega
    rw [if_neg outside, Word.isSet_of_le _ beyond, Word.isSet_of_le _ beyond]

/-- A field that is written reads back the low bits of the value. -/
theorem toNat_extract_insert (target : Word) (value : UInt64) :
    (field.extract (field.insert target value)).toNat = value.toNat % 2 ^ field.width := by
  have total := field.first_add_width_add_shift
  apply Nat.eq_of_testBit_eq
  intro bit
  rw [toNat_extract, toNat_insert, Nat.testBit_mod_two_pow, Nat.testBit_mod_two_pow,
    Nat.testBit_div_two_pow, testBit_merge]
  by_cases within : bit < field.width
  · have inside : field.shift ≤ bit + field.shift ∧
        bit + field.shift < field.shift + field.width := by omega
    simp [within, inside]
  · simp [within]

/-- A field that shares no bit with the one that is written reads as before. -/
theorem extract_insert_of_disjoint (other : BitField) (target : Word) (value : UInt64)
    (disjoint : field.last < other.first ∨ other.last < field.first) :
    other.extract (field.insert target value) = other.extract target := by
  have total := field.first_add_width_add_shift
  have otherTotal := other.first_add_width_add_shift
  have ends := field.last_add_one
  have otherEnds := other.last_add_one
  apply UInt64.toNat_inj.mp
  apply Nat.eq_of_testBit_eq
  intro bit
  rw [toNat_extract, toNat_extract, toNat_insert, Nat.testBit_mod_two_pow,
    Nat.testBit_mod_two_pow, Nat.testBit_div_two_pow, Nat.testBit_div_two_pow, testBit_merge]
  by_cases within : bit < other.width
  · have outside : ¬ (field.shift ≤ bit + other.shift ∧
        bit + other.shift < field.shift + field.width) := by omega
    rw [if_neg outside]
  · simp [within]

/-- A field that is written reads back a value that fits in it. -/
theorem extract_insert_of_lt (target : Word) {value : UInt64}
    (fits : value.toNat < 2 ^ field.width) : field.extract (field.insert target value) = value := by
  apply UInt64.toNat_inj.mp
  rw [toNat_extract_insert, Nat.mod_eq_of_lt fits]

/-- What does not fit in a field makes no difference to a write. -/
theorem insert_congr (target : Word) {value second : UInt64}
    (same : value.toNat % 2 ^ field.width = second.toNat % 2 ^ field.width) :
    field.insert target value = field.insert target second := by
  have cut : value &&& field.mask = second &&& field.mask := by
    apply UInt64.toNat_inj.mp
    rw [UInt64.toNat_and, UInt64.toNat_and, toNat_mask, Nat.and_two_pow_sub_one_eq_mod,
      Nat.and_two_pow_sub_one_eq_mod, same]
  rw [insert, insert, merge, merge, cut]

/-! ### Two fields of a word of zeros -/

/-- The first field ends before the second begins, and two values fit them. -/
structure PairFits (first second : BitField) (value secondValue : UInt64) : Prop where
  apart : first.last < second.first
  value : value.toNat < 2 ^ first.width
  secondValue : secondValue.toNat < 2 ^ second.width

section Pair

variable {first second : BitField} {value secondValue other secondOther : UInt64}

/-- Values that fit are both read back. -/
theorem extract_pair (fits : PairFits first second value secondValue) :
    first.extract (first.pair second value secondValue) = value ∧
      second.extract (first.pair second value secondValue) = secondValue := by
  constructor
  · rw [pair, extract_insert_of_disjoint _ _ _ _ (.inr fits.apart),
      extract_insert_of_lt _ _ fits.value]
  · exact extract_insert_of_lt _ _ fits.secondValue

/-- Values that fit are the same if their words are. -/
theorem eq_of_pair_eq (fits : PairFits first second value secondValue)
    (otherFits : PairFits first second other secondOther)
    (same : first.pair second value secondValue = first.pair second other secondOther) :
    value = other ∧ secondValue = secondOther := by
  obtain ⟨reads, secondReads⟩ := extract_pair fits
  obtain ⟨otherReads, secondOtherReads⟩ := extract_pair otherFits
  rw [same] at reads secondReads
  exact ⟨reads.symm.trans otherReads, secondReads.symm.trans secondOtherReads⟩

/-- Values that are cut down before they are written make the word of the whole values. -/
theorem pair_eq_of_toNat_eq_mod (cut : value.toNat = other.toNat % 2 ^ first.width)
    (secondCut : secondValue.toNat = secondOther.toNat % 2 ^ second.width) :
    first.pair second value secondValue = first.pair second other secondOther := by
  have same : value.toNat % 2 ^ first.width = other.toNat % 2 ^ first.width := by
    rw [cut, Nat.mod_mod]
  have secondSame : secondValue.toNat % 2 ^ second.width =
      secondOther.toNat % 2 ^ second.width := by
    rw [secondCut, Nat.mod_mod]
  rw [pair, pair, first.insert_congr 0 same, second.insert_congr _ secondSame]

/-- No bit outside the two fields is set. -/
theorem isSet_pair_of_outside {bit : Nat} (outside : ¬ (first.first ≤ bit ∧ bit ≤ first.last))
    (secondOutside : ¬ (second.first ≤ bit ∧ bit ≤ second.last)) :
    (first.pair second value secondValue).isSet bit = false := by
  rw [pair, isSet_insert, if_neg secondOutside, isSet_insert, if_neg outside]
  exact BitVec.getMsbD_zero

end Pair

end BitField

end ControlWords
