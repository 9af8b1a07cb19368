/-
**Runs of bits within the words of a structure.**

A `BitField` names a run of bits of one word by its first machine bit and its width. The run is
never empty and never leaves the word; `BitField.ofRange` refuses every other pair of numbers, and
its check cannot wrap around. All reading and writing is shifting and masking of 64-bit values:

* `extract` reads the field right-aligned, `extractInPlace` without moving it, `flag` asks whether
  any of its bits is set;
* `insert` writes the low bits of a value into the field and keeps all other bits of the word;
* `pair` writes two fields of a word of zeros;
* `lowBits width` keeps the low bits of a value, all of them when the width is 64 or more.
-/

import ControlWords.Word.Basic

namespace ControlWords

/-- The low `width` bits of a value, which is all of it for a width of 64 or more. -/
def lowBits (width : Nat) (value : UInt64) : UInt64 :=
  if 64 ≤ width then value else value &&& ((1 <<< UInt64.ofNat width) - 1)

/-- Whether a run of bits holds a bit and ends within its word. -/
def fitsWord (first width : Nat) : Bool :=
  decide (0 < width) && decide (first + width ≤ 36)

/-- A run of bits of one word of a structure. -/
structure BitField where
  /-- The index of the word within the structure. -/
  word : Nat
  /-- The first and most significant bit of the run, in machine numbering. -/
  first : Nat
  /-- The number of bits of the run. -/
  width : Nat
  /-- The run holds a bit and ends within the word. -/
  fits : fitsWord first width = true := by exact Eq.refl true
deriving DecidableEq, Repr

namespace BitField

theorem width_pos (field : BitField) : 0 < field.width :=
  of_decide_eq_true (Bool.and_eq_true_iff.mp field.fits).1

theorem inside (field : BitField) : field.first + field.width ≤ 36 :=
  of_decide_eq_true (Bool.and_eq_true_iff.mp field.fits).2

/-- Why a run of bits is refused. -/
inductive RangeError where
  /-- The run is empty or reaches outside the word. -/
  | outsideWord
deriving DecidableEq, Repr

/-- The reason in words. -/
def RangeError.message : RangeError → String
  | .outsideWord => "field must be non-empty and lie within bits 0-35"

/-- The check of a run of bits does not wrap around, so it says that the run fits. -/
theorem fitsWord_toNat {first width : UInt32}
    (bounded : 0 < width ∧ first < 36 ∧ width ≤ 36 - first) :
    fitsWord first.toNat width.toNat = true := by
  have positive : 0 < width.toNat := UInt32.lt_iff_toNat_lt.mp bounded.1
  have before : first.toNat < 36 := UInt32.lt_iff_toNat_lt.mp bounded.2.1
  have ends := UInt32.le_iff_toNat_le.mp bounded.2.2
  rw [UInt32.toNat_sub_of_le _ _ (UInt32.le_of_lt bounded.2.1)] at ends
  have whole : (36 : UInt32).toNat = 36 := rfl
  have inside : first.toNat + width.toNat ≤ 36 := by omega
  exact Bool.and_eq_true_iff.mpr ⟨decide_eq_true positive, decide_eq_true inside⟩

/-- The field of `width` bits from bit `first` on, if it is not empty and ends within the word. -/
def ofRange (word : Nat) (first width : UInt32) : Except RangeError BitField :=
  if bounded : 0 < width ∧ first < 36 ∧ width ≤ 36 - first then
    .ok { word, first := first.toNat, width := width.toNat, fits := fitsWord_toNat bounded }
  else
    .error .outsideWord

/-- The field that spans a whole word. -/
def wholeWord (word : Nat) : BitField where
  word
  first := 0
  width := 36

/-- The last and least significant bit of the field, in machine numbering. -/
def last (field : BitField) : Nat :=
  field.first + field.width - 1

/-- The number of bits of the word below the field. -/
def shift (field : BitField) : Nat :=
  36 - field.first - field.width

/-- The mask of the field, right-aligned. -/
def mask (field : BitField) : UInt64 :=
  lowBits field.width (~~~0)

/-- The mask of the field in its place within the word. -/
def inPlaceMask (field : BitField) : UInt64 :=
  field.mask <<< UInt64.ofNat field.shift

/-- The field of a word, right-aligned. -/
def extract (field : BitField) (target : Word) : UInt64 :=
  (target.toUInt64 >>> UInt64.ofNat field.shift) &&& field.mask

/-- The field of a word in its place, with every other bit clear. -/
def extractInPlace (field : BitField) (target : Word) : UInt64 :=
  target.toUInt64 &&& field.inPlaceMask

/-- Whether some bit of the field is set. -/
def flag (field : BitField) (target : Word) : Bool :=
  field.extract target != 0

/-- The 64-bit value of a word whose field is replaced by the low bits of `value`. -/
def merge (field : BitField) (target : Word) (value : UInt64) : UInt64 :=
  (target.toUInt64 &&& ~~~field.inPlaceMask) |||
    ((value &&& field.mask) <<< UInt64.ofNat field.shift)

/-- The word with its field replaced by the low bits of `value`. -/
def insert (field : BitField) (target : Word) (value : UInt64) : Word :=
  Word.ofUInt64 (field.merge target value)

/-- A word of zeros in which two fields are replaced, one after the other. -/
def pair (first second : BitField) (value secondValue : UInt64) : Word :=
  second.insert (first.insert 0 value) secondValue

end BitField

end ControlWords
