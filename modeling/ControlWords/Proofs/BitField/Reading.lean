/-
**What a field reads, bit by bit and as a sum of weights.**

The machine numbers the bits of a word from the most significant one, while a field is read by
shifting and masking its number. Here the two are brought together:

* `Word.number`: the number that a run of machine bits forms, most significant bit first;
* `BitField.toNat_extract_eq_number`: reading a field gives the number of its run;
* `BitField.extract_eq_iff`: two words read the same exactly when they agree on the bits of the run;
* `BitField.isSet_inPlaceMask`: the mask of a field in its place has the bits of the run only.

In a word the machine bit `bit` has the weight `2 ^ (35 - bit)`, and within a field whose last bit
is `last` it has the weight `2 ^ (last - bit)`. What a field reads is said here by the bits that are
set and their weights, without shifts and masks:

* `foldl_isSet_eq_sum`: the number of a run of bits is the sum of the weights of its set bits;
* `toNat_extract_eq_sum`: so a field reads the sum of the weights within it;
* `toNat_extractInPlace`: in its place it reads the same number, moved up by its shift;
* `flag_iff`: its flag says whether any weight is in the sum;
* `Word.toNat_toUInt64_eq_sum`: the word itself is the sum of all its weights;
* `toNat_insert_add_extractInPlace`: writing a field exchanges the weights that it held for those of
  the value;
* `reads_set_bits`: all readings of a field and of a word, by their set bits.
-/

import Mathlib.Algebra.BigOperators.Intervals
import Mathlib.Algebra.BigOperators.Ring.Finset
import Mathlib.Order.Interval.Finset.Nat
import ControlWords.BitField.Lemmas

namespace ControlWords

namespace Word

/-! ### Words and their machine bits -/

theorem isSet_eq_testBit (word : Word) {bit : Nat} (inWord : bit < 36) :
    word.isSet bit = word.toNat.testBit (35 - bit) := by
  rw [isSet, BitVec.getMsbD_eq_getLsbD, decide_eq_true inWord, Bool.true_and]
  rfl

/-- **Words with the same machine bits are equal.** -/
theorem eq_of_isSet_eq {first second : Word}
    (same : ∀ bit < 36, first.isSet bit = second.isSet bit) : first = second :=
  BitVec.eq_of_getMsbD_eq same

/-- The number that the bits of a word from `first` to `last` form, most significant first. -/
def number (word : Word) (first last : Nat) : Nat :=
  (List.range' first (last + 1 - first)).foldl
    (fun total bit => 2 * total + (word.isSet bit).toNat) 0

theorem mod_two_pow_succ_eq (value count : Nat) :
    value % 2 ^ (count + 1) = 2 * (value / 2 % 2 ^ count) + (value.testBit 0).toNat := by
  rw [Nat.pow_succ', Nat.mod_mul, Nat.testBit_zero, Nat.add_comm]
  rcases Nat.mod_two_eq_zero_or_one value with even | odd
  · rw [even]
    rfl
  · rw [odd]
    rfl

/-- The number of a run of bits is the quotient above the bits after it, less the bits before it. -/
theorem foldl_isSet (word : Word) (first : Nat) :
    ∀ count, first + count ≤ 36 →
      (List.range' first count).foldl (fun total bit => 2 * total + (word.isSet bit).toNat) 0
        = word.toNat / 2 ^ (36 - first - count) % 2 ^ count
  | 0, _ => by simp [Nat.mod_one]
  | count + 1, inside => by
    have previous := foldl_isSet word first count (by omega)
    have above : 36 - first - count = 36 - first - (count + 1) + 1 := by omega
    have place : 35 - (first + count) = 36 - first - (count + 1) := by omega
    rw [List.range'_concat, List.foldl_append, previous, List.foldl_cons, List.foldl_nil,
      Nat.one_mul, isSet_eq_testBit word (by omega), place, mod_two_pow_succ_eq, above,
      Nat.pow_succ, ← Nat.div_div_eq_div_mul, Nat.testBit_div_two_pow, Nat.zero_add]

/-- The number of a run that begins within another is what the longer run's number leaves. -/
theorem number_eq_mod (word : Word) {first inner last : Nat} (order : first ≤ inner)
    (inside : inner ≤ last) (within : last < 36) :
    word.number inner last = word.number first last % 2 ^ (last + 1 - inner) := by
  have divides : 2 ^ (last + 1 - inner) ∣ 2 ^ (last + 1 - first) :=
    Nat.pow_dvd_pow 2 (by omega)
  have below : 36 - inner - (last + 1 - inner) = 36 - first - (last + 1 - first) := by omega
  rw [number, number, foldl_isSet _ _ _ (by omega), foldl_isSet _ _ _ (by omega),
    Nat.mod_mod_of_dvd _ divides, below]

/-- The number of a run that ends within another is the longer run's number without its end. -/
theorem number_eq_div (word : Word) {first inner last : Nat} (order : first ≤ inner)
    (inside : inner ≤ last) (within : last < 36) :
    word.number first inner = word.number first last / 2 ^ (last - inner) := by
  have split : 36 - first - (inner + 1 - first) =
      36 - first - (last + 1 - first) + (last - inner) := by omega
  have width : last + 1 - first = (last - inner) + (inner + 1 - first) := by omega
  rw [number, number, foldl_isSet _ _ _ (by omega), foldl_isSet _ _ _ (by omega),
    split, Nat.pow_add, ← Nat.div_div_eq_div_mul, width, Nat.pow_add, Nat.mod_mul_right_div_self]

end Word

namespace BitField

variable (field : BitField)

/-! ### Fields and their machine bits -/

/-- **A field reads the number of its run of bits.** -/
theorem toNat_extract_eq_number (target : Word) :
    (field.extract target).toNat = target.number field.first field.last := by
  have inside := field.inside
  have ends := field.last_add_one
  have count : field.last + 1 - field.first = field.width := by omega
  rw [toNat_extract, Word.number, count, Word.foldl_isSet _ _ _ inside]
  rfl

theorem toNat_extract_lt (target : Word) :
    (field.extract target).toNat < 2 ^ field.width := by
  rw [toNat_extract]
  exact Nat.mod_lt _ (Nat.two_pow_pos _)

/-- A bit within a field is a binary digit of what the field reads. -/
theorem isSet_eq_testBit_extract (target : Word) {bit : Nat} (starts : field.first ≤ bit)
    (ends : bit ≤ field.last) :
    target.isSet bit = (field.extract target).toNat.testBit (field.last - bit) := by
  have total := field.first_add_width_add_shift
  have last := field.last_add_one
  have below : field.last - bit < field.width := by omega
  have place : field.last - bit + field.shift = 35 - bit := by omega
  rw [toNat_extract, Nat.testBit_mod_two_pow, decide_eq_true below, Bool.true_and,
    Nat.testBit_div_two_pow, place, Word.isSet_eq_testBit _ (by omega)]

/-- **Two words read the same exactly when they agree on every bit of the field.** -/
theorem extract_eq_iff {first second : Word} :
    field.extract first = field.extract second ↔
      ∀ bit, field.first ≤ bit → bit ≤ field.last → first.isSet bit = second.isSet bit := by
  have last := field.last_add_one
  constructor
  · intro same bit starts ends
    rw [isSet_eq_testBit_extract field _ starts ends, isSet_eq_testBit_extract field _ starts ends,
      same]
  · intro agree
    apply UInt64.toNat_inj.mp
    apply Nat.eq_of_testBit_eq
    intro index
    by_cases within : index < field.width
    · have place : field.last - (field.last - index) = index := by omega
      have same := agree (field.last - index) (by omega) (by omega)
      rw [isSet_eq_testBit_extract field _ (by omega) (by omega),
        isSet_eq_testBit_extract field _ (by omega) (by omega), place] at same
      exact same
    · have wide : 2 ^ field.width ≤ 2 ^ index := Nat.pow_le_pow_right (by decide) (by omega)
      rw [Nat.testBit_lt_two_pow (Nat.lt_of_lt_of_le (field.toNat_extract_lt first) wide),
        Nat.testBit_lt_two_pow (Nat.lt_of_lt_of_le (field.toNat_extract_lt second) wide)]

/-- The mask in place has the bits of the field and no other. -/
theorem isSet_inPlaceMask (bit : Nat) :
    (Word.ofUInt64 field.inPlaceMask).isSet bit =
      decide (field.first ≤ bit ∧ bit ≤ field.last) := by
  have total := field.first_add_width_add_shift
  have last := field.last_add_one
  by_cases inWord : bit < 36
  · have same : (field.shift ≤ 35 - bit ∧ 35 - bit < field.shift + field.width) ↔
        (field.first ≤ bit ∧ bit ≤ field.last) := by omega
    have low : 35 - bit < 36 := by omega
    rw [Word.isSet_eq_testBit _ inWord, Word.toNat_ofUInt64, Nat.testBit_mod_two_pow,
      decide_eq_true low, Bool.true_and, testBit_inPlaceMask, decide_eq_decide.mpr same]
  · have outside : ¬ (field.first ≤ bit ∧ bit ≤ field.last) := by omega
    rw [Word.isSet_of_le _ (by omega), decide_eq_false outside]

end BitField

/-! ### Weights -/

/-- The number of a run of bits is the sum of the weights of its set bits: one more bit at the end
doubles the weight of every bit before it and has the weight one. -/
theorem Word.foldl_isSet_eq_sum (word : Word) (first count : Nat) :
    (List.range' first count).foldl (fun total bit => 2 * total + (word.isSet bit).toNat) 0 =
      ∑ bit ∈ Finset.Ico first (first + count) with word.isSet bit,
        2 ^ (first + count - 1 - bit) := by
  rw [Finset.sum_filter]
  induction count with
  | zero => simp
  | succ count ih =>
    have doubled : ∀ bit ∈ Finset.Ico first (first + count),
        2 * (if word.isSet bit = true then 2 ^ (first + count - 1 - bit) else 0) =
          if word.isSet bit = true then 2 ^ (first + (count + 1) - 1 - bit) else 0 := by
      intro bit within
      rw [Finset.mem_Ico] at within
      have above : first + (count + 1) - 1 - bit = first + count - 1 - bit + 1 := by omega
      rw [above, Nat.pow_succ', mul_ite, Nat.mul_zero]
    have single : (word.isSet (first + count)).toNat = if word.isSet (first + count) = true then
        2 ^ (first + (count + 1) - 1 - (first + count)) else 0 := by
      have own : first + (count + 1) - 1 - (first + count) = 0 := by omega
      rw [own]
      cases word.isSet (first + count) <;> rfl
    rw [List.range'_concat, List.foldl_append, ih, List.foldl_cons, List.foldl_nil, Nat.one_mul,
      Finset.mul_sum, Finset.sum_congr rfl doubled, single, ← Nat.add_assoc first count 1,
      Finset.sum_Ico_succ_top (Nat.le_add_right first count)]

namespace BitField

variable (field : BitField)

/-- The machine numbers of the bits of a field. -/
def bits : Finset Nat :=
  Finset.Icc field.first field.last

@[simp] theorem mem_bits {bit : Nat} : bit ∈ field.bits ↔ field.first ≤ bit ∧ bit ≤ field.last :=
  Finset.mem_Icc

/-- **A field reads the sum of the weights of its set bits.** -/
theorem toNat_extract_eq_sum (target : Word) :
    (field.extract target).toNat =
      ∑ bit ∈ field.bits with target.isSet bit, 2 ^ (field.last - bit) := by
  have ends := field.last_add_one
  have positive := field.width_pos
  have count : field.last + 1 - field.first = field.width := by omega
  have past : field.first + field.width - 1 = field.last := by omega
  have run : Finset.Ico field.first (field.first + field.width) = field.bits := by
    ext bit
    rw [Finset.mem_Ico, mem_bits]
    omega
  rw [toNat_extract_eq_number, Word.number, count, Word.foldl_isSet_eq_sum, run, past]

/-- **A field in its place reads its number moved up by its shift.** -/
theorem toNat_extractInPlace (target : Word) :
    (field.extractInPlace target).toNat = (field.extract target).toNat * 2 ^ field.shift := by
  apply Nat.eq_of_testBit_eq
  intro bit
  rw [extractInPlace, UInt64.toNat_and, Nat.testBit_and, testBit_inPlaceMask,
    Word.toNat_toUInt64, toNat_extract, Nat.testBit_mul_two_pow, Nat.testBit_mod_two_pow,
    Nat.testBit_div_two_pow]
  by_cases above : field.shift ≤ bit
  · have place : bit - field.shift + field.shift = bit := by omega
    have same : bit < field.shift + field.width ↔ bit - field.shift < field.width := by omega
    simp only [above, true_and, same, place, decide_true, Bool.true_and]
    exact Bool.and_comm _ _
  · simp [above]

/-- A weight within the field, moved up by the shift, is the weight within the word. -/
theorem toNat_extractInPlace_eq_sum (target : Word) :
    (field.extractInPlace target).toNat =
      ∑ bit ∈ field.bits with target.isSet bit, 2 ^ (35 - bit) := by
  have total := field.first_add_width_add_shift
  have ends := field.last_add_one
  rw [toNat_extractInPlace, toNat_extract_eq_sum, Finset.sum_mul]
  refine Finset.sum_congr rfl fun bit member => ?_
  have within := field.mem_bits.mp (Finset.mem_filter.mp member).1
  have moved : field.last - bit + field.shift = 35 - bit := by omega
  rw [← Nat.pow_add, moved]

theorem extract_zero : field.extract 0 = 0 := by
  apply UInt64.toNat_inj.mp
  rw [toNat_extract]
  simp

/-- **The flag of a field is up exactly when some bit of the field is set**, since the field reads
zero exactly when it agrees with the word that has no bit set. -/
theorem flag_iff (target : Word) :
    field.flag target = true ↔ ∃ bit ∈ field.bits, target.isSet bit = true := by
  have clear : ∀ bit, (0 : Word).isSet bit = false := fun _ => BitVec.getMsbD_zero
  have agree : field.extract target = field.extract 0 ↔ _ := field.extract_eq_iff
  rw [extract_zero] at agree
  simp only [flag, bne_iff_ne, ne_eq, agree, clear, mem_bits, not_forall, exists_prop,
    Bool.not_eq_false, and_assoc]

/-- The flag of a field of one bit is that bit. -/
theorem flag_eq_isSet (single : field.width = 1) (target : Word) :
    field.flag target = target.isSet field.first := by
  have last := field.last_add_one
  rw [Bool.eq_iff_iff, flag_iff]
  constructor
  · rintro ⟨bit, within, set⟩
    have bounds := field.mem_bits.mp within
    have same : bit = field.first := by omega
    rwa [← same]
  · intro set
    exact ⟨field.first, field.mem_bits.mpr (by omega), set⟩

end BitField

/-- **A word is the sum of the weights of its set bits.** -/
theorem Word.toNat_toUInt64_eq_sum (target : Word) :
    target.toUInt64.toNat = ∑ bit ∈ Finset.Icc 0 35 with target.isSet bit, 2 ^ (35 - bit) := by
  have read := (BitField.wholeWord 0).toNat_extract_eq_sum target
  have whole : ((BitField.wholeWord 0).extract target).toNat = target.toNat := by
    rw [BitField.toNat_extract]
    show target.toNat / 2 ^ 0 % 2 ^ 36 = target.toNat
    rw [Nat.pow_zero, Nat.div_one, Nat.mod_eq_of_lt target.isLt]
  rw [toNat_toUInt64, ← whole, read]
  rfl

namespace BitField

variable (field : BitField)

/-! ### Writing -/

/-- A word is the weights beside a field and what the field reads in its place. -/
theorem toNat_eq_sum_add_extractInPlace (target : Word) :
    target.toNat = ∑ bit ∈ Finset.Icc 0 35 \ field.bits with target.isSet bit, 2 ^ (35 - bit) +
      (field.extractInPlace target).toNat := by
  have ends := field.last_add_one
  have inside := field.inside
  have part : field.bits ⊆ Finset.Icc 0 35 := by
    intro bit within
    have bounds := field.mem_bits.mp within
    rw [Finset.mem_Icc]
    omega
  have whole := Word.toNat_toUInt64_eq_sum target
  rw [Word.toNat_toUInt64, Finset.sum_filter, ← Finset.sum_sdiff part] at whole
  rw [whole, toNat_extractInPlace_eq_sum, Finset.sum_filter, Finset.sum_filter]

/-- **Writing a field exchanges the weights that it held for those of the value.** -/
theorem toNat_insert_add_extractInPlace (target : Word) (value : UInt64) :
    (field.insert target value).toNat + (field.extractInPlace target).toNat =
      target.toNat + value.toNat % 2 ^ field.width * 2 ^ field.shift := by
  have kept : ∑ bit ∈ Finset.Icc 0 35 \ field.bits with (field.insert target value).isSet bit,
      2 ^ (35 - bit) = ∑ bit ∈ Finset.Icc 0 35 \ field.bits with target.isSet bit,
        2 ^ (35 - bit) := by
    refine Finset.sum_congr (Finset.filter_congr fun bit member => ?_) fun _ _ => rfl
    have beside := (Finset.mem_sdiff.mp member).2
    rw [isSet_insert, if_neg (beside ∘ field.mem_bits.mpr)]
  rw [field.toNat_eq_sum_add_extractInPlace (field.insert target value), kept,
    toNat_extractInPlace, toNat_extract_insert]
  have before := field.toNat_eq_sum_add_extractInPlace target
  omega

/-- Writing a field that reads zero adds the weights of the value. -/
theorem toNat_insert_of_extract_eq_zero {target : Word} (clear : field.extract target = 0)
    (value : UInt64) :
    (field.insert target value).toNat =
      target.toNat + value.toNat % 2 ^ field.width * 2 ^ field.shift := by
  have exchanged := field.toNat_insert_add_extractInPlace target value
  rw [toNat_extractInPlace, clear, UInt64.toNat_zero, Nat.zero_mul] at exchanged
  exact exchanged

/-- A field of a word of zeros stands for the low bits of the value, moved up by the shift. -/
theorem toNat_insert_zero (value : UInt64) :
    (field.insert 0 value).toNat = value.toNat % 2 ^ field.width * 2 ^ field.shift := by
  rw [toNat_insert_of_extract_eq_zero field field.extract_zero]
  exact Nat.zero_add _

/-- What a field reads, written into a word of zeros, is what it reads in its place. -/
theorem toUInt64_insert_zero_extract (target : Word) :
    (field.insert 0 (field.extract target)).toUInt64 = field.extractInPlace target := by
  apply UInt64.toNat_inj.mp
  rw [Word.toNat_toUInt64, toNat_insert_zero, toNat_extractInPlace,
    Nat.mod_eq_of_lt (field.toNat_extract_lt target)]

/-- A value that was written into a word of zeros and fits is found by moving the word down. -/
theorem insert_zero_shiftRight {value : UInt64} (fits : value.toNat < 2 ^ field.width) :
    (field.insert 0 value).toUInt64 >>> UInt64.ofNat field.shift = value := by
  have total := field.first_add_width_add_shift
  have small : field.shift < 64 := by omega
  apply UInt64.toNat_inj.mp
  rw [UInt64.toNat_shiftRight, Word.toNat_toUInt64, toNat_insert_zero, toNat_shift,
    Nat.mod_eq_of_lt small, Nat.mod_eq_of_lt fits, Nat.shiftRight_eq_div_pow,
    Nat.mul_div_cancel _ (Nat.two_pow_pos _)]

/-- Two fields of a word of zeros add up. -/
theorem toNat_pair {second : BitField} (apart : field.last < second.first)
    (value secondValue : UInt64) :
    (field.pair second value secondValue).toNat =
      value.toNat % 2 ^ field.width * 2 ^ field.shift +
        secondValue.toNat % 2 ^ second.width * 2 ^ second.shift := by
  have clear : second.extract (field.insert 0 value) = 0 := by
    rw [extract_insert_of_disjoint _ _ _ _ (.inl apart), extract_zero]
  rw [pair, second.toNat_insert_of_extract_eq_zero clear, toNat_insert_zero]

end BitField

/-- **All readings of a field are sums over its set bits.** Right-aligned, a field reads the weights
that its set bits have within it; in its place it reads the weights that they have within the word,
which is the same number moved up by the shift; and its flag is up when it has a set bit. A word is
itself the sum of the weights of its set bits, and no bit from 36 on is set. -/
theorem BitField.reads_set_bits (field : BitField) (target : Word) :
    (field.extract target).toNat =
        ∑ bit ∈ field.bits with target.isSet bit, 2 ^ (field.last - bit) ∧
      (field.extractInPlace target).toNat =
        ∑ bit ∈ field.bits with target.isSet bit, 2 ^ (35 - bit) ∧
      (field.extractInPlace target).toNat = (field.extract target).toNat * 2 ^ field.shift ∧
      (field.flag target = true ↔ ∃ bit ∈ field.bits, target.isSet bit = true) ∧
      target.toUInt64.toNat = ∑ bit ∈ Finset.Icc 0 35 with target.isSet bit, 2 ^ (35 - bit) ∧
      ∀ bit, 36 ≤ bit → target.isSet bit = false :=
  ⟨field.toNat_extract_eq_sum target, field.toNat_extractInPlace_eq_sum target,
    field.toNat_extractInPlace target, field.flag_iff target, target.toNat_toUInt64_eq_sum,
    fun _ beyond => target.isSet_of_le beyond⟩

/-- Of the six bits from bit 12 on, those of the weights 32, 8, 4 and 2 are set, in place each of
them `2 ^ 18` times as much; and there is no bit 40. -/
theorem BitField.reads_set_bits_of_six_bits :
    (36 ≤ 40 ∧ Word.isSet 0o123456777777 40 = false) ∧
      ((⟨0, 12, 6, rfl⟩ : BitField).extract 0o123456777777).toNat = 32 + 8 + 4 + 2 ∧
      ((⟨0, 12, 6, rfl⟩ : BitField).extractInPlace 0o123456777777).toNat =
        (32 + 8 + 4 + 2) * 2 ^ 18 := by
  obtain ⟨reads, _, moved, _, _, beyond⟩ := reads_set_bits ⟨0, 12, 6, rfl⟩ 0o123456777777
  have sum : ((⟨0, 12, 6, rfl⟩ : BitField).extract 0o123456777777).toNat = 32 + 8 + 4 + 2 :=
    reads.trans (by decide)
  refine ⟨⟨by decide, beyond 40 (by decide)⟩, sum, ?_⟩
  rw [moved, sum]
  rfl

end ControlWords
