/-
**The laws of writing fields.**

A field behaves as a cell of the word: what is written is read, writing what is read changes
nothing, and the last of two writes counts. Two fields of one word are independent cells exactly
when they share no bit:

* `insert_extract` and `insert_insert`: a write of what is there, and a write over a write;
* `disjoint_bits_iff`: sharing no bit, said by where the fields begin and end;
* `extract_insert_iff_disjoint`: the fields that no write into a field can change are those that
  share no bit with it;
* `insert_comm_iff_disjoint`: writes into two fields may be exchanged, whatever is written, for the
  same fields only;
* `fields_are_cells`: all the laws together.
-/

import ControlWords.Proofs.BitField.Reading

namespace ControlWords.BitField

variable (field : BitField)

/-! ### One field -/

/-- A write sets each bit of its field from the value. -/
theorem isSet_insert_of_mem (target : Word) (value : UInt64) {bit : Nat}
    (within : bit ∈ field.bits) :
    (field.insert target value).isSet bit = value.toNat.testBit (field.last - bit) := by
  rw [isSet_insert, if_pos (field.mem_bits.mp within)]

/-- A write keeps each bit outside its field. -/
theorem isSet_insert_of_notMem (target : Word) (value : UInt64) {bit : Nat}
    (outside : bit ∉ field.bits) :
    (field.insert target value).isSet bit = target.isSet bit := by
  rw [isSet_insert, if_neg (outside ∘ field.mem_bits.mpr)]

/-- Writing what a field reads changes nothing. -/
theorem insert_extract (target : Word) : field.insert target (field.extract target) = target := by
  refine Word.eq_of_isSet_eq fun bit _ => ?_
  by_cases within : bit ∈ field.bits
  · obtain ⟨starts, ends⟩ := field.mem_bits.mp within
    rw [isSet_insert_of_mem field _ _ within, field.isSet_eq_testBit_extract _ starts ends]
  · rw [isSet_insert_of_notMem field _ _ within]

/-- Of two writes into one field the last counts. -/
theorem insert_insert (target : Word) (value second : UInt64) :
    field.insert (field.insert target value) second = field.insert target second := by
  refine Word.eq_of_isSet_eq fun bit _ => ?_
  by_cases within : bit ∈ field.bits
  · rw [isSet_insert_of_mem field _ _ within, isSet_insert_of_mem field _ _ within]
  · simp only [isSet_insert_of_notMem field _ _ within]

/-! ### A shared bit tells two fields apart -/

/-- Writing ones sets every bit of a field. -/
theorem isSet_insert_ones (target : Word) {bit : Nat} (within : bit ∈ field.bits) :
    (field.insert target (~~~0)).isSet bit = true := by
  have total := field.first_add_width_add_shift
  have ends := field.last_add_one
  have inNumber : field.last - bit < 64 := by omega
  rw [isSet_insert_of_mem field _ _ within, testBit_not, decide_eq_true inNumber,
    UInt64.toNat_zero, Nat.zero_testBit]
  rfl

/-- Writing zero clears every bit of a field. -/
theorem isSet_insert_zero (target : Word) {bit : Nat} (within : bit ∈ field.bits) :
    (field.insert target 0).isSet bit = false := by
  rw [isSet_insert_of_mem field _ _ within, UInt64.toNat_zero, Nat.zero_testBit]

variable (other : BitField)

/-! ### Two fields -/

/-- Of two fields that share no bit one ends before the other begins. -/
theorem disjoint_bits_iff :
    Disjoint field.bits other.bits ↔ field.last < other.first ∨ other.last < field.first := by
  have ends := field.last_add_one
  have positive := field.width_pos
  have otherEnds := other.last_add_one
  have otherPositive := other.width_pos
  rw [Finset.disjoint_left]
  constructor
  · intro disjoint
    have later : ¬ (max field.first other.first ∈ field.bits ∧
        max field.first other.first ∈ other.bits) := fun both => disjoint both.1 both.2
    rw [mem_bits, mem_bits] at later
    omega
  · intro apart bit within shared
    rw [mem_bits] at within shared
    omega

/-- **A field is safe from all writes into another exactly when it shares no bit with it**, since
ones after zeros are read at a shared bit. -/
theorem extract_insert_iff_disjoint :
    (∀ (target : Word) (value : UInt64),
      other.extract (field.insert target value) = other.extract target) ↔
        Disjoint field.bits other.bits := by
  constructor
  · intro safe
    refine Finset.disjoint_left.mpr fun bit within shared => ?_
    have same := safe (field.insert 0 0) (~~~0)
    obtain ⟨starts, ends⟩ := other.mem_bits.mp shared
    have agree := (extract_eq_iff other).mp same bit starts ends
    rw [isSet_insert_ones field _ within, isSet_insert_zero field _ within] at agree
    cases agree
  · intro disjoint target value
    exact field.extract_insert_of_disjoint other target value
      ((field.disjoint_bits_iff other).mp disjoint)

/-- **Writes into two fields may be exchanged exactly when the fields share no bit**, since a shared
bit is set when ones are written last and clear when zeros are. -/
theorem insert_comm_iff_disjoint :
    (∀ (target : Word) (value second : UInt64),
      field.insert (other.insert target value) second =
        other.insert (field.insert target second) value) ↔
          Disjoint field.bits other.bits := by
  constructor
  · intro commute
    refine Finset.disjoint_left.mpr fun bit within shared => ?_
    have same := congrArg (fun word => Word.isSet word bit) (commute 0 0 (~~~0))
    simp only [isSet_insert_ones field _ within, isSet_insert_zero other _ shared] at same
    cases same
  · intro disjoint target value second
    refine Word.eq_of_isSet_eq fun bit _ => ?_
    by_cases within : bit ∈ field.bits
    · have outside : bit ∉ other.bits := Finset.disjoint_left.mp disjoint within
      rw [isSet_insert_of_mem field _ _ within, isSet_insert_of_notMem other _ _ outside,
        isSet_insert_of_mem field _ _ within]
    · rw [isSet_insert_of_notMem field _ _ within]
      by_cases shared : bit ∈ other.bits
      · rw [isSet_insert_of_mem other _ _ shared, isSet_insert_of_mem other _ _ shared]
      · rw [isSet_insert_of_notMem other _ _ shared, isSet_insert_of_notMem other _ _ shared,
          isSet_insert_of_notMem field _ _ within]

/-- **Fields are cells, independent of those with which they share no bit.** What is written into a
field is read from it, cut down to its width; writing what it reads changes nothing; of two writes
the last counts. Another field reads the same after every write, and writes into the two may be
exchanged, exactly when the two share no bit. -/
theorem fields_are_cells (field other : BitField) :
    (∀ (target : Word) (value : UInt64),
      (field.extract (field.insert target value)).toNat = value.toNat % 2 ^ field.width) ∧
    (∀ target : Word, field.insert target (field.extract target) = target) ∧
    (∀ (target : Word) (value second : UInt64),
      field.insert (field.insert target value) second = field.insert target second) ∧
    ((∀ (target : Word) (value : UInt64),
      other.extract (field.insert target value) = other.extract target) ↔
        Disjoint field.bits other.bits) ∧
    ((∀ (target : Word) (value second : UInt64),
      field.insert (other.insert target value) second =
        other.insert (field.insert target second) value) ↔
          Disjoint field.bits other.bits) :=
  ⟨field.toNat_extract_insert, field.insert_extract, field.insert_insert,
    field.extract_insert_iff_disjoint other, field.insert_comm_iff_disjoint other⟩

end ControlWords.BitField
