/-
**Fields in checked arithmetic.**

The machine's numbers have 32 or 64 bits, and some operations on them have no result: a sum of too
many bits, a difference below zero, a shift by as many places as there are bits, a shift to the left
or a narrowing that loses a bit. In checked arithmetic such an operation gives nothing, and neither
does whatever is computed from it:

* `Checked.fits?_eq`: the check of a run of bits always gives a result, because it subtracts only
  after it has compared;
* `Checked.lowBits?_eq`: keeping the low bits of a value gives a result for every width;
* `faultless_of_ofRange`: once a run of bits is accepted, every operation on its field gives in
  checked arithmetic what it gives without checks;
* `accepted_ranges_never_overflow`: which runs are accepted, and the bounds that all this rests on.

Low bits are kept in one of two ways: a width of 64 or more keeps the whole value, and for a smaller
one the mask of the width is made by a shift. The border between them is where the shift no longer
has a result. In numbers the two are one, the remainder by a power of two, and so what holds of
remainders holds on both sides of the border and across it:

* `lowBits_lowBits`: cut down twice, a value keeps the low bits of the smaller width;
* `Checked.shiftLeft?_one_eq_none_iff`: the shift has no result for exactly those widths that keep
  the whole value;
* `Checked.lowBits?_bind_lowBits?`: a value is cut down twice without a fault;
* `low_bits_are_remainders`: all this together, for every width of 32 bits.
-/

import ControlWords.BitField.Lemmas

namespace ControlWords

namespace Checked

/-! ### Operations that may have no result -/

/-- The sum of two numbers, if it has no more than 32 bits. -/
def add? (first second : UInt32) : Option UInt32 :=
  if first.toNat + second.toNat < 2 ^ 32 then some (first + second) else none

/-- The difference of two numbers, if it is not below zero. -/
def sub? (first second : UInt32) : Option UInt32 :=
  if second ≤ first then some (first - second) else none

/-- The number before a number, if there is one. -/
def pred? (value : UInt64) : Option UInt64 :=
  if 1 ≤ value then some (value - 1) else none

/-- The value moved up by fewer than 64 places, if no bit of it is lost. -/
def shiftLeft? (value : UInt64) (places : UInt32) : Option UInt64 :=
  if places < 64 ∧ value.toNat * 2 ^ places.toNat < 2 ^ 64 then
    some (value <<< places.toUInt64)
  else
    none

/-- The value moved down by fewer than 64 places. -/
def shiftRight? (value : UInt64) (places : UInt32) : Option UInt64 :=
  if places < 64 then some (value >>> places.toUInt64) else none

/-- The low bits of a value, if no other bit of it is set. -/
def narrow? (width : Nat) (value : UInt64) : Option (BitVec width) :=
  if value.toNat < 2 ^ width then some (value.toBitVec.setWidth width) else none

/-- A sum that fits is computed. -/
theorem exists_add?_eq {first second : UInt32} (fits : first.toNat + second.toNat < 2 ^ 32) :
    ∃ sum, add? first second = some sum ∧ sum.toNat = first.toNat + second.toNat := by
  refine ⟨first + second, if_pos fits, ?_⟩
  rw [UInt32.toNat_add, Nat.mod_eq_of_lt fits]

/-- A difference that is not below zero is computed. -/
theorem exists_sub?_eq {first second : UInt32} (order : second.toNat ≤ first.toNat) :
    ∃ difference, sub? first second = some difference ∧
      difference.toNat = first.toNat - second.toNat := by
  have le : second ≤ first := UInt32.le_iff_toNat_le.mpr order
  exact ⟨first - second, if_pos le, UInt32.toNat_sub_of_le _ _ le⟩

theorem pred?_eq {value : UInt64} (positive : 1 ≤ value.toNat) :
    pred? value = some (value - 1) := by
  have le : 1 ≤ value := UInt64.le_iff_toNat_le.mpr positive
  rw [pred?, if_pos le]

/-- A value that has no more bits than it may have keeps its number. -/
theorem narrow?_eq {width : Nat} {value : UInt64} {bits : BitVec width}
    (same : value.toNat = bits.toNat) : narrow? width value = some bits := by
  have fits : value.toNat < 2 ^ width := by
    rw [same]
    exact bits.isLt
  rw [narrow?, if_pos fits]
  exact congrArg some (setWidth_eq_of_toNat_eq bits same)

section Shifts

variable {value : UInt64} {places : UInt32}

/-- A number of 32 bits is the same number of 64 bits. -/
theorem toUInt64_eq (places : UInt32) : places.toUInt64 = UInt64.ofNat places.toNat := by
  have wide : places.toNat < UInt64.size := Nat.lt_trans places.toNat_lt (by decide)
  apply UInt64.toNat_inj.mp
  rw [UInt32.toNat_toUInt64, UInt64.toNat_ofNat_of_lt' wide]

theorem shiftLeft?_eq (small : places.toNat < 64)
    (kept : value.toNat * 2 ^ places.toNat < 2 ^ 64) :
    shiftLeft? value places = some (value <<< UInt64.ofNat places.toNat) := by
  have fewer : places < 64 := UInt32.lt_iff_toNat_lt.mpr small
  rw [shiftLeft?, if_pos ⟨fewer, kept⟩, toUInt64_eq]

/-- A single bit loses nothing when it is moved up. -/
theorem shiftLeft?_one_eq (small : places.toNat < 64) :
    shiftLeft? 1 places = some (1 <<< UInt64.ofNat places.toNat) := by
  have kept : (1 : UInt64).toNat * 2 ^ places.toNat < 2 ^ 64 := by
    rw [UInt64.toNat_one, Nat.one_mul]
    exact Nat.pow_lt_pow_right (by decide) small
  exact shiftLeft?_eq small kept

theorem shiftRight?_eq (small : places.toNat < 64) :
    shiftRight? value places = some (value >>> UInt64.ofNat places.toNat) := by
  have fewer : places < 64 := UInt32.lt_iff_toNat_lt.mpr small
  rw [shiftRight?, if_pos fewer, toUInt64_eq]

end Shifts

/-! ### Fields -/

/-- The low bits of a value. -/
def lowBits? (width : UInt32) (value : UInt64) : Option UInt64 :=
  if 64 ≤ width then
    some value
  else do
    let power ← shiftLeft? 1 width
    let ones ← pred? power
    return value &&& ones

section Range

variable (first width : UInt32)

/-- Whether a run of bits holds a bit and ends within its word. -/
def fits? : Option Bool :=
  if 0 < width ∧ first < 36 then do
    let room ← sub? 36 first
    return width ≤ room
  else
    return false

/-- The last bit of a run. -/
def last? : Option UInt32 := do
  let past ← add? first width
  sub? past 1

/-- The number of bits of the word below a run. -/
def shift? : Option UInt32 := do
  let rest ← sub? 36 first
  sub? rest width

/-- The mask of as many bits as a run has. -/
def mask? : Option UInt64 :=
  lowBits? width (~~~0)

/-- The mask of a run in its place within the word. -/
def inPlaceMask? : Option UInt64 := do
  let mask ← mask? width
  let shift ← shift? first width
  shiftLeft? mask shift

/-- The run of a word, right-aligned. -/
def extract? (target : Word) : Option UInt64 := do
  let shift ← shift? first width
  let moved ← shiftRight? target.toUInt64 shift
  let mask ← mask? width
  return moved &&& mask

/-- The 64-bit value of a word whose run is replaced by the low bits of a value. -/
def merge? (target : Word) (value : UInt64) : Option UInt64 := do
  let inPlace ← inPlaceMask? first width
  let mask ← mask? width
  let shift ← shift? first width
  let placed ← shiftLeft? (value &&& mask) shift
  return (target.toUInt64 &&& ~~~inPlace) ||| placed

/-- The run of a word as a number of some bits. -/
def read? (bits : Nat) (target : Word) : Option (BitVec bits) := do
  let value ← extract? first width target
  narrow? bits value

/-- The word whose run is replaced by the low bits of a value. -/
def insert? (target : Word) (value : UInt64) : Option Word := do
  let merged ← merge? first width target value
  narrow? 36 merged

end Range

/-- **Keeping low bits gives a result for every width**, as the width of the value is not shifted
by. -/
theorem lowBits?_eq (width : UInt32) (value : UInt64) :
    lowBits? width value = some (lowBits width.toNat value) := by
  have limit : 64 ≤ width ↔ 64 ≤ width.toNat := UInt32.le_iff_toNat_le
  by_cases wide : 64 ≤ width
  · rw [lowBits?, if_pos wide, lowBits, if_pos (limit.mp wide)]
  · have narrow : ¬ 64 ≤ width.toNat := wide ∘ limit.mpr
    have small : width.toNat < 64 := Nat.lt_of_not_le narrow
    have positive : 1 ≤ ((1 : UInt64) <<< UInt64.ofNat width.toNat).toNat := by
      rw [toNat_one_shiftLeft small]
      exact Nat.two_pow_pos _
    rw [lowBits?, if_neg wide, lowBits, if_neg narrow, shiftLeft?_one_eq small,
      Option.bind_eq_bind, Option.bind_some, pred?_eq positive]
    rfl

/-- **The check of a run of bits always gives a result**, and the right one. -/
theorem fits?_eq (first width : UInt32) :
    fits? first width = some (decide (1 ≤ width.toNat ∧ first.toNat + width.toNat ≤ 36)) := by
  have whole : (36 : UInt32).toNat = 36 := rfl
  have positive : 0 < width ↔ 0 < width.toNat := UInt32.lt_iff_toNat_lt
  have before : first < 36 ↔ first.toNat < 36 := UInt32.lt_iff_toNat_lt
  by_cases bounded : 0 < width ∧ first < 36
  · have holdsBit := positive.mp bounded.1
    have inWord := before.mp bounded.2
    have order : first.toNat ≤ (36 : UInt32).toNat := Nat.le_of_lt inWord
    obtain ⟨room, computed, same⟩ := exists_sub?_eq order
    have decided : width ≤ room ↔ 1 ≤ width.toNat ∧ first.toNat + width.toNat ≤ 36 := by
      rw [UInt32.le_iff_toNat_le, same]
      omega
    rw [fits?, if_pos bounded, computed, Option.bind_eq_bind, Option.bind_some,
      decide_eq_decide.mpr decided]
    rfl
  · have refused : ¬ (1 ≤ width.toNat ∧ first.toNat + width.toNat ≤ 36) := fun both =>
      bounded ⟨positive.mpr both.1, before.mpr (by omega)⟩
    rw [fits?, if_neg bounded, decide_eq_false refused]
    rfl

end Checked

namespace BitField

/-- The operations on a field give in checked arithmetic what they give without checks. -/
structure Faultless (first width : UInt32) (field : BitField) : Prop where
  last : ∃ bit, Checked.last? first width = some bit ∧ bit.toNat = field.last
  shift : ∃ places, Checked.shift? first width = some places ∧ places.toNat = field.shift
  mask : Checked.mask? width = some field.mask
  inPlaceMask : Checked.inPlaceMask? first width = some field.inPlaceMask
  extract : ∀ target, Checked.extract? first width target = some (field.extract target)
  merge : ∀ target value,
    Checked.merge? first width target value = some (field.merge target value)

/-- A value cut down to a field can be moved to its place. -/
theorem shiftLeft?_and_mask (field : BitField) {places : UInt32}
    (same : places.toNat = field.shift) (value : UInt64) :
    Checked.shiftLeft? (value &&& field.mask) places =
      some ((value &&& field.mask) <<< UInt64.ofNat field.shift) := by
  have total := field.first_add_width_add_shift
  have cut : (value &&& field.mask).toNat = value.toNat % 2 ^ field.width := by
    rw [UInt64.toNat_and, toNat_mask, Nat.and_two_pow_sub_one_eq_mod]
  have kept : (value &&& field.mask).toNat * 2 ^ places.toNat < 2 ^ 64 := by
    rw [cut, same, ← field.toNat_and_mask_shiftLeft]
    exact UInt64.toNat_lt _
  rw [Checked.shiftLeft?_eq (by omega) kept, same]

section Accepted

variable {word : Nat} {first width : UInt32} {field : BitField}
  (accepted : ofRange word first width = .ok field)

include accepted

theorem exists_last?_eq : ∃ bit, Checked.last? first width = some bit ∧ bit.toNat = field.last := by
  obtain ⟨_, sameFirst, sameWidth⟩ := ofRange_eq_ok_iff.mp accepted
  have positive := field.width_pos
  have inside := field.inside
  have fits : first.toNat + width.toNat < 2 ^ 32 := by omega
  obtain ⟨past, summed, samePast⟩ := Checked.exists_add?_eq fits
  have order : (1 : UInt32).toNat ≤ past.toNat := by
    rw [samePast, UInt32.toNat_one]
    omega
  obtain ⟨bit, computed, same⟩ := Checked.exists_sub?_eq order
  refine ⟨bit, ?_, ?_⟩
  · rw [Checked.last?, summed, Option.bind_eq_bind, Option.bind_some, computed]
  · rw [same, samePast, last, sameFirst, sameWidth, UInt32.toNat_one]

theorem exists_shift?_eq :
    ∃ places, Checked.shift? first width = some places ∧ places.toNat = field.shift := by
  obtain ⟨_, sameFirst, sameWidth⟩ := ofRange_eq_ok_iff.mp accepted
  have inside := field.inside
  have whole : (36 : UInt32).toNat = 36 := rfl
  have before : first.toNat ≤ (36 : UInt32).toNat := by omega
  obtain ⟨rest, difference, sameRest⟩ := Checked.exists_sub?_eq before
  have order : width.toNat ≤ rest.toNat := by omega
  obtain ⟨places, computed, same⟩ := Checked.exists_sub?_eq order
  refine ⟨places, ?_, ?_⟩
  · rw [Checked.shift?, difference, Option.bind_eq_bind, Option.bind_some, computed]
  · rw [same, sameRest, shift, sameFirst, sameWidth, whole]

theorem mask?_eq : Checked.mask? width = some field.mask := by
  obtain ⟨_, _, sameWidth⟩ := ofRange_eq_ok_iff.mp accepted
  rw [Checked.mask?, Checked.lowBits?_eq, mask, sameWidth]

theorem inPlaceMask?_eq : Checked.inPlaceMask? first width = some field.inPlaceMask := by
  obtain ⟨places, computed, same⟩ := exists_shift?_eq accepted
  have own : field.mask &&& field.mask = field.mask := UInt64.and_self
  have placed := field.shiftLeft?_and_mask same field.mask
  rw [own] at placed
  rw [Checked.inPlaceMask?, mask?_eq accepted, computed]
  exact placed

theorem extract?_eq (target : Word) :
    Checked.extract? first width target = some (field.extract target) := by
  obtain ⟨places, computed, same⟩ := exists_shift?_eq accepted
  have total := field.first_add_width_add_shift
  have small : places.toNat < 64 := by omega
  rw [Checked.extract?, computed, mask?_eq accepted, Option.bind_eq_bind, Option.bind_some,
    Checked.shiftRight?_eq small, same]
  rfl

theorem merge?_eq (target : Word) (value : UInt64) :
    Checked.merge? first width target value = some (field.merge target value) := by
  obtain ⟨places, computed, same⟩ := exists_shift?_eq accepted
  rw [Checked.merge?, inPlaceMask?_eq accepted, mask?_eq accepted, computed]
  simp only [Option.bind_eq_bind, Option.bind_some, field.shiftLeft?_and_mask same]
  rfl

theorem insert?_eq (target : Word) (value : UInt64) :
    Checked.insert? first width target value = some (field.insert target value) := by
  rw [Checked.insert?, merge?_eq accepted, Option.bind_eq_bind, Option.bind_some]
  exact Checked.narrow?_eq (field.toNat_insert target value).symm

/-- A field is read into a number that has room for what it reads. -/
theorem read?_eq {bits : Nat} {target : Word} {number : BitVec bits}
    (same : (field.extract target).toNat = number.toNat) :
    Checked.read? first width bits target = some number := by
  rw [Checked.read?, extract?_eq accepted, Option.bind_eq_bind, Option.bind_some]
  exact Checked.narrow?_eq same

/-- **No operation on the field of an accepted run of bits has a fault.** -/
theorem faultless_of_ofRange : Faultless first width field where
  last := exists_last?_eq accepted
  shift := exists_shift?_eq accepted
  mask := mask?_eq accepted
  inPlaceMask := inPlaceMask?_eq accepted
  extract := extract?_eq accepted
  merge := merge?_eq accepted

end Accepted

/-! ### Bounds -/

theorem toNat_inPlaceMask_lt (field : BitField) : field.inPlaceMask.toNat < 2 ^ 36 := by
  have total := field.first_add_width_add_shift
  have positive : 0 < 2 ^ field.width := Nat.two_pow_pos _
  have cut : 2 ^ field.width - 1 < 2 ^ field.width := by omega
  calc field.inPlaceMask.toNat = (2 ^ field.width - 1) * 2 ^ field.shift := toNat_inPlaceMask field
    _ < 2 ^ field.width * 2 ^ field.shift :=
      Nat.mul_lt_mul_of_pos_right cut (Nat.two_pow_pos _)
    _ = 2 ^ (field.width + field.shift) := (Nat.pow_add _ _ _).symm
    _ ≤ 2 ^ 36 := Nat.pow_le_pow_right (by decide) (by omega)

theorem last_add_shift (field : BitField) : field.last + field.shift = 35 := by
  have total := field.first_add_width_add_shift
  have ends := field.last_add_one
  omega

/-- **Exactly the runs of bits within a word are accepted, and nothing overflows on their fields.**
The check itself computes without a fault for all numbers of 32 bits, and accepts a run exactly when
it holds a bit and its end, added up without wrapping around, is within the word. The field of an
accepted run has the numbers of the run; no operation on it leaves the machine's numbers; its last
bit and its shift are within the word and its masks are what they should be; and what is merged for
writing is already a word, so that building the word cuts nothing off. -/
theorem accepted_ranges_never_overflow (word : Nat) (first width : UInt32) :
    Checked.fits? first width =
        some (decide (1 ≤ width.toNat ∧ first.toNat + width.toNat ≤ 36)) ∧
      ((∃ field, ofRange word first width = .ok field) ↔
        1 ≤ width.toNat ∧ first.toNat + width.toNat ≤ 36) ∧
      ∀ field, ofRange word first width = .ok field →
        (field.word = word ∧ field.first = first.toNat ∧ field.width = width.toNat) ∧
        Faultless first width field ∧
        field.last ≤ 35 ∧ field.last + field.shift = 35 ∧
        field.mask.toNat = 2 ^ field.width - 1 ∧
        field.inPlaceMask.toNat = (2 ^ field.width - 1) * 2 ^ field.shift ∧
        field.inPlaceMask.toNat < 2 ^ 36 ∧
        ∀ (target : Word) (value : UInt64),
          field.insert target value = Word.ofUInt64 (field.merge target value) ∧
            (field.merge target value).toNat < 2 ^ 36 := by
  refine ⟨Checked.fits?_eq first width, exists_ofRange_eq_ok_iff, fun field accepted => ?_⟩
  have ends := field.last_add_shift
  exact ⟨ofRange_eq_ok_iff.mp accepted, faultless_of_ofRange accepted, by omega, ends,
    field.toNat_mask, field.toNat_inPlaceMask, field.toNat_inPlaceMask_lt,
    fun target value => ⟨rfl, field.merge_lt target value⟩⟩

/-- A first bit far outside the word is refused without a fault, and the run that ends with the word
is accepted: all ones merged into its six bits are still no more than a word. -/
theorem accepted_ranges_never_overflow_at_the_end :
    Checked.fits? 0xFFFFFFFF 2 = some false ∧
      ofRange 4 30 6 = .ok ⟨4, 30, 6, rfl⟩ ∧ Faultless 30 6 ⟨4, 30, 6, rfl⟩ ∧
      ((⟨4, 30, 6, rfl⟩ : BitField).merge Word.mask (~~~0)).toNat < 2 ^ 36 := by
  have accepted : ofRange 4 30 6 = .ok ⟨4, 30, 6, rfl⟩ := ofRange_eq_ok_iff.mpr ⟨rfl, rfl, rfl⟩
  obtain ⟨refused, _, _⟩ := accepted_ranges_never_overflow 0 0xFFFFFFFF 2
  obtain ⟨_, _, never⟩ := accepted_ranges_never_overflow 4 30 6
  obtain ⟨_, faultless, _, _, _, _, _, written⟩ := never _ accepted
  refine ⟨refused.trans ?_, accepted, faultless, (written Word.mask (~~~0)).2⟩
  decide

end BitField

/-! ### Cutting down twice -/

section

variable {width : Nat} {value : UInt64}

/-- A value that has no more bits than are kept stays as it is. -/
theorem lowBits_of_lt (fits : value.toNat < 2 ^ width) : lowBits width value = value := by
  apply UInt64.toNat_inj.mp
  rw [toNat_lowBits, Nat.mod_eq_of_lt fits]

/-- A value that was cut down to more bits than are kept is cut down as if it had them all. -/
theorem lowBits_lowBits_of_le {wider : Nat} (order : width ≤ wider) :
    lowBits width (lowBits wider value) = lowBits width value := by
  have divides : 2 ^ width ∣ 2 ^ wider := Nat.pow_dvd_pow 2 order
  apply UInt64.toNat_inj.mp
  rw [toNat_lowBits, toNat_lowBits, toNat_lowBits, Nat.mod_mod_of_dvd _ divides]

/-- A value that was cut down to no more bits than are kept has no other bits to lose. -/
theorem lowBits_lowBits_of_ge {narrower : Nat} (order : narrower ≤ width) :
    lowBits width (lowBits narrower value) = lowBits narrower value := by
  apply lowBits_of_lt
  calc (lowBits narrower value).toNat = value.toNat % 2 ^ narrower := toNat_lowBits narrower value
    _ < 2 ^ narrower := Nat.mod_lt _ (Nat.two_pow_pos narrower)
    _ ≤ 2 ^ width := Nat.pow_le_pow_right (by decide) order

end

/-- **Cut down twice, a value keeps the low bits of the smaller width.** -/
theorem lowBits_lowBits (first second : Nat) (value : UInt64) :
    lowBits second (lowBits first value) = lowBits (min first second) value := by
  rcases Nat.le_total first second with order | order
  · rw [lowBits_lowBits_of_ge order, Nat.min_eq_left order]
  · rw [lowBits_lowBits_of_le order, Nat.min_eq_right order]

/-! ### Widths of 32 bits -/

/-- The smaller of two numbers of 32 bits is the smaller number. -/
theorem toNat_min (first second : UInt32) :
    (min first second).toNat = min first.toNat second.toNat := by
  have least : min first second = if first ≤ second then first else second := rfl
  rw [least, apply_ite UInt32.toNat, Nat.min_def]
  simp only [UInt32.le_iff_toNat_le]

namespace Checked

/-- **No mask is made by a shift for exactly those widths that keep the whole value.** -/
theorem shiftLeft?_one_eq_none_iff (width : UInt32) : shiftLeft? 1 width = none ↔ 64 ≤ width := by
  by_cases small : width < 64
  · have computed := shiftLeft?_one_eq (UInt32.lt_iff_toNat_lt.mp small)
    rw [computed]
    exact iff_of_false (Option.some_ne_none _) (UInt32.not_le.mpr small)
  · have fault : shiftLeft? 1 width = none := if_neg fun shifted => small shifted.1
    exact iff_of_true fault (UInt32.not_lt.mp small)

/-- The last width that needs a mask, and the first that could not have one. -/
example : lowBits? 63 (~~~0) = some 0x7FFFFFFFFFFFFFFF ∧ shiftLeft? 1 64 = none ∧
    lowBits? 64 (~~~0) = some (~~~0) := by decide

/-- **A value is cut down twice without a fault**, and to the smaller width. -/
theorem lowBits?_bind_lowBits? (first second : UInt32) (value : UInt64) :
    (lowBits? first value).bind (lowBits? second) = lowBits? (min first second) value := by
  rw [lowBits?_eq, Option.bind_some, lowBits?_eq, lowBits?_eq, lowBits_lowBits, toNat_min]

end Checked

/-- **The low bits of a value are its remainder by a power of two**, for every value and every width
of 32 bits. Keeping them has a result in checked arithmetic for each of these widths, although the
shift that makes the mask has none from 64 on. Keeping the low bits of what was kept before, with
checks or without, is keeping those of the smaller of the two widths, whichever side of 64 each of
them is on. -/
theorem low_bits_are_remainders (value : UInt64) :
    (∀ width : UInt32,
      Checked.lowBits? width value = some (lowBits width.toNat value) ∧
        (lowBits width.toNat value).toNat = value.toNat % 2 ^ width.toNat ∧
        (Checked.shiftLeft? 1 width = none ↔ 64 ≤ width)) ∧
    ∀ first second : UInt32,
      lowBits second.toNat (lowBits first.toNat value) = lowBits (min first second).toNat value ∧
        (Checked.lowBits? first value).bind (Checked.lowBits? second) =
          Checked.lowBits? (min first second) value := by
  constructor
  · intro width
    exact ⟨Checked.lowBits?_eq width value, toNat_lowBits width.toNat value,
      Checked.shiftLeft?_one_eq_none_iff width⟩
  · intro first second
    have unchecked := lowBits_lowBits first.toNat second.toNat value
    rw [← toNat_min] at unchecked
    exact ⟨unchecked, Checked.lowBits?_bind_lowBits? first second value⟩

end ControlWords
