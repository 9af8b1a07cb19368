/-
**Decoding a gate, bit by bit.**

What the views of a decoded gate show is compared with the bits of the words, most significant bit
first and without shifts or masks:

* `Gate.ReadsFields` and `readsFields_ofWords`: each view of the gate of five words is what one
  operation on its field gives, narrowed to the type of the view;
* `value_designatorBits`: the designator bits are the designator, moved down;
* `Gate.FollowsMap`: the field map, one row for each view of a gate;
* `followsMap_ofWords`: the gate of five words follows the map;
* `fieldView_ofWords`: each field shows the number of its run of bits;
* `decode_reads_map`: a buffer is refused exactly when it has fewer than five words, and otherwise
  only its first five words count and their gate follows the map.
-/

import ControlWords.Proofs.BitField.Reading
import ControlWords.Proofs.Gate.RoundTrip

namespace ControlWords.Gate

open GateField (load)

/-! ### The views of a gate -/

/-- What the views of a gate show for a field, as a number. -/
def fieldView (gate : Gate) : GateField → Nat
  | .generalEnter => gate.generalPermissions.enter.toNat
  | .specialEnter => gate.specialPermissions.enter.toNat
  | .library => gate.library.toNat
  | .gotoInhibit => gate.gotoInhibit.toNat
  | .designatorInhibit => gate.designatorInhibit.toNat
  | .accessKeyInhibit => gate.accessKeyInhibit.toNat
  | .latentInhibit0 => gate.latentInhibit0.toNat
  | .latentInhibit1 => gate.latentInhibit1.toNat
  | .accessLock => gate.accessLock.composite.toNat
  | .targetLevel => gate.target.level.toNat
  | .targetIndex => gate.target.index.toNat
  | .targetOffset => gate.target.offset.toNat
  | .baseRegister => gate.baseRegister.toNat
  | .designatorBits => (GateField.designatorBits.range.extract gate.designator.word).toNat
  | .newAccessKey => gate.newAccessKey.composite.toNat
  | .latentParameter0 => gate.latentParameter0.toNat
  | .latentParameter1 => gate.latentParameter1.toNat

/-- The field map: what each view of the gate of five words shows, in machine bits. -/
structure FollowsMap (gate : Gate) (words : GateWords) : Prop where
  /-- Entering is bit 0 of word 0; reading and writing are never granted. -/
  generalPermissions : gate.generalPermissions = ⟨(words.get 0).isSet 0, false, false⟩
  /-- Entering is bit 3 of word 0; reading and writing are never granted. -/
  specialPermissions : gate.specialPermissions = ⟨(words.get 0).isSet 3, false, false⟩
  library : gate.library = (words.get 0).isSet 12
  gotoInhibit : gate.gotoInhibit = (words.get 0).isSet 13
  designatorInhibit : gate.designatorInhibit = (words.get 0).isSet 14
  accessKeyInhibit : gate.accessKeyInhibit = (words.get 0).isSet 15
  latentInhibit0 : gate.latentInhibit0 = (words.get 0).isSet 16
  latentInhibit1 : gate.latentInhibit1 = (words.get 0).isSet 17
  lockRing : gate.accessLock.ring.toNat = (words.get 0).number 18 19
  lockDomain : gate.accessLock.domain.toNat = (words.get 0).number 20 35
  targetLevel : gate.target.level.toNat = (words.get 1).number 0 2
  targetIndex : gate.target.index.toNat = (words.get 1).number 3 17
  targetOffset : gate.target.offset.toNat = (words.get 1).number 18 35
  baseRegister : gate.baseRegister.toNat = (words.get 2).number 10 11
  /-- The sum does not wrap around. -/
  baseRegisterIndex : gate.baseRegisterIndex.toNat = 12 + (words.get 2).number 10 11
  /-- Bits 12 to 17 stay in their place and all others are clear. -/
  designator : ∀ bit, gate.designator.word.isSet bit =
    (decide (12 ≤ bit ∧ bit ≤ 17) && (words.get 2).isSet bit)
  privilege : gate.designator.privilege.toNat = (words.get 2).number 14 15
  basicMode : gate.designator.basicMode = (words.get 2).isSet 16
  executiveRegisters : gate.designator.executiveRegisters = (words.get 2).isSet 17
  keyRing : gate.newAccessKey.ring.toNat = (words.get 2).number 18 19
  keyDomain : gate.newAccessKey.domain.toNat = (words.get 2).number 20 35
  latentParameter0 : gate.latentParameter0.toNat = (words.get 3).number 0 35
  latentParameter1 : gate.latentParameter1.toNat = (words.get 4).number 0 35

/-! ### Views and values -/

theorem toNat_toUInt64_bool (flag : Bool) : flag.toUInt64.toNat = flag.toNat := by
  cases flag <;> rfl

/-- No view loses a bit of the value of its field. -/
theorem fieldView_eq_toNat_value (gate : Gate) (field : GateField) :
    gate.fieldView field = (gate.value field).toNat := by
  cases field with
  | generalEnter | specialEnter | library | gotoInhibit | designatorInhibit | accessKeyInhibit
  | latentInhibit0 | latentInhibit1 => exact (toNat_toUInt64_bool _).symm
  | accessLock | newAccessKey =>
    exact (Access.toNat_composite _).trans (Access.toNat_toUInt64 _).symm
  | targetLevel =>
    exact (toNat_uint8_of_narrow _ (by decide)).trans (toNat_uint64_of_narrow _ (by decide)).symm
  | targetIndex =>
    exact (toNat_uint16_of_narrow _ (by decide)).trans (toNat_uint64_of_narrow _ (by decide)).symm
  | targetOffset =>
    exact (toNat_uint32_of_narrow _ (by decide)).trans (toNat_uint64_of_narrow _ (by decide)).symm
  | baseRegister => exact (toNat_uint64_of_narrow _ (by decide)).symm
  | designatorBits =>
    exact (BitField.toNat_extract_insert _ _ _).trans
      (Nat.mod_eq_of_lt (toNat_value_lt gate .designatorBits))
  | latentParameter0 | latentParameter1 => exact (Word.toNat_toUInt64 _).symm

/-- **Each field of the gate of five words shows the number of its run of bits.** -/
theorem fieldView_ofWords (words : GateWords) (field : GateField) :
    (ofWords words).fieldView field =
      (words.get field.slot).number field.range.first field.range.last := by
  rw [fieldView_eq_toNat_value, value_ofWords, load, BitField.toNat_extract_eq_number]

/-! ### Views and operations on fields -/

/-- What the views of the gate of five words are read by: flags of fields of one bit, the other
fields right-aligned and narrowed to the type of the view, the designator bits in their place. -/
structure ReadsFields (gate : Gate) (words : GateWords) : Prop where
  generalPermissions : gate.generalPermissions =
    ⟨GateField.generalEnter.range.flag (words.get 0), false, false⟩
  specialPermissions : gate.specialPermissions =
    ⟨GateField.specialEnter.range.flag (words.get 0), false, false⟩
  library : gate.library = GateField.library.range.flag (words.get 0)
  gotoInhibit : gate.gotoInhibit = GateField.gotoInhibit.range.flag (words.get 0)
  designatorInhibit : gate.designatorInhibit =
    GateField.designatorInhibit.range.flag (words.get 0)
  accessKeyInhibit : gate.accessKeyInhibit = GateField.accessKeyInhibit.range.flag (words.get 0)
  latentInhibit0 : gate.latentInhibit0 = GateField.latentInhibit0.range.flag (words.get 0)
  latentInhibit1 : gate.latentInhibit1 = GateField.latentInhibit1.range.flag (words.get 0)
  accessLock : gate.accessLock = .ofComposite (load words .accessLock)
  target : gate.target = ⟨(load words .targetLevel).toUInt8, (load words .targetIndex).toUInt16,
    (load words .targetOffset).toUInt32⟩
  baseRegister : UInt8.ofNat gate.baseRegister.toNat = (load words .baseRegister).toUInt8
  designator : gate.designator =
    .ofComposite (GateField.designatorBits.range.extractInPlace (words.get 2))
  newAccessKey : gate.newAccessKey = .ofComposite (load words .newAccessKey)
  latentParameter0 : gate.latentParameter0 = .ofUInt64 (load words .latentParameter0)
  latentParameter1 : gate.latentParameter1 = .ofUInt64 (load words .latentParameter1)

/-- The lowest bit of a field of one bit is its flag. -/
theorem getLsbD_load (words : GateWords) (field : GateField) (single : field.range.width = 1) :
    (load words field).toBitVec.getLsbD 0 = field.range.flag (words.get field.slot) := by
  have last := field.range.last_add_one
  have place : field.range.last - field.range.first = 0 := by omega
  rw [field.range.flag_eq_isSet single,
    BitField.isSet_eq_testBit_extract field.range _ (Nat.le_refl _) (by omega), place]
  rfl

/-- A field that is cut down to its own width keeps its number. -/
theorem toNat_setWidth_load (words : GateWords) (field : GateField) :
    ((load words field).toBitVec.setWidth field.range.width).toNat = (load words field).toNat := by
  rw [BitVec.toNat_setWidth, UInt64.toNat_toBitVec,
    Nat.mod_eq_of_lt (GateField.toNat_load_lt words field)]

theorem designator_ofWords (words : GateWords) : (ofWords words).designator =
    .ofComposite (GateField.designatorBits.range.extractInPlace (words.get 2)) := by
  have inPlace := GateField.designatorBits.range.toUInt64_insert_zero_extract (words.get 2)
  rw [designator, value_ofWords, DesignatorRegister.ofComposite, ← inPlace,
    Word.ofUInt64_toUInt64]
  rfl

/-- **Each view of the gate of five words is what one operation on its field gives.** -/
theorem readsFields_ofWords (words : GateWords) : (ofWords words).ReadsFields words where
  generalPermissions := congrArg (Permissions.mk · false false) (getLsbD_load words _ rfl)
  specialPermissions := congrArg (Permissions.mk · false false) (getLsbD_load words _ rfl)
  library := getLsbD_load words .library rfl
  gotoInhibit := getLsbD_load words .gotoInhibit rfl
  designatorInhibit := getLsbD_load words .designatorInhibit rfl
  accessKeyInhibit := getLsbD_load words .accessKeyInhibit rfl
  latentInhibit0 := getLsbD_load words .latentInhibit0 rfl
  latentInhibit1 := getLsbD_load words .latentInhibit1 rfl
  accessLock := rfl
  target := by
    have level : (ofWords words).targetLevel.toNat = _ := toNat_setWidth_load words .targetLevel
    have index : (ofWords words).targetIndex.toNat = _ := toNat_setWidth_load words .targetIndex
    have offset : (ofWords words).targetOffset.toNat = _ :=
      toNat_setWidth_load words .targetOffset
    rw [target, level, index, offset]
    rfl
  baseRegister := congrArg UInt8.ofNat (toNat_setWidth_load words .baseRegister)
  designator := designator_ofWords words
  newAccessKey := rfl
  latentParameter0 := rfl
  latentParameter1 := rfl

/-- **The designator bits are the designator, moved down.** -/
theorem value_designatorBits (gate : Gate) : gate.value .designatorBits =
    gate.designator.word.toUInt64 >>> UInt64.ofNat GateField.designatorBits.range.shift :=
  (BitField.insert_zero_shiftRight _ (toNat_value_lt gate .designatorBits)).symm

/-! ### The rows of the map -/

/-- A lock or key holds the ring above the domain, so each has its own bits of the composite. -/
theorem parts_of_composite {role : AccessRole} (access : Access role) {word : Word}
    (composite : access.composite.toNat = word.number 18 35) :
    access.ring.toNat = word.number 18 19 ∧ access.domain.toNat = word.number 20 35 := by
  have small : access.domain.toNat < 2 ^ 16 := access.domain.isLt
  rw [Access.toNat_composite] at composite
  have ring := word.number_eq_div (show 18 ≤ 19 by decide) (show 19 ≤ 35 by decide) (by decide)
  have domain := word.number_eq_mod (show 18 ≤ 20 by decide) (show 20 ≤ 35 by decide) (by decide)
  rw [ring, domain, ← composite]
  omega

/-- The designator of the gate of five words has bits 12 to 17 of word 2 and no others. -/
theorem isSet_designator_ofWords (words : GateWords) (bit : Nat) :
    (ofWords words).designator.word.isSet bit =
      (decide (12 ≤ bit ∧ bit ≤ 17) && (words.get 2).isSet bit) := by
  have value := value_ofWords words .designatorBits
  have starts : GateField.designatorBits.range.first = 12 := rfl
  have ends : GateField.designatorBits.range.last = 17 := rfl
  rw [designator, BitField.isSet_insert, value, starts, ends]
  by_cases within : 12 ≤ bit ∧ bit ≤ 17
  · rw [if_pos within, decide_eq_true within, Bool.true_and]
    exact (BitField.isSet_eq_testBit_extract _ (words.get 2) within.1 within.2).symm
  · rw [if_neg within, decide_eq_false within, Bool.false_and]
    exact BitVec.getMsbD_zero

theorem privilege_designator_ofWords (words : GateWords) :
    (ofWords words).designator.privilege.toNat = (words.get 2).number 14 15 := by
  have same : DesignatorRegister.privilegeField.extract (ofWords words).designator.word =
      DesignatorRegister.privilegeField.extract (words.get 2) := by
    rw [BitField.extract_eq_iff]
    intro bit starts ends
    have first : DesignatorRegister.privilegeField.first = 14 := rfl
    have last : DesignatorRegister.privilegeField.last = 15 := rfl
    rw [isSet_designator_ofWords, decide_eq_true (by omega), Bool.true_and]
  have small := DesignatorRegister.privilegeField.toNat_extract_lt (words.get 2)
  have number := DesignatorRegister.privilegeField.toNat_extract_eq_number (words.get 2)
  rw [DesignatorRegister.privilege, same, UInt64.toNat_toUInt8,
    Nat.mod_eq_of_lt (Nat.lt_trans small (by decide))]
  exact number

/-- The base register of a gate has two bits, so counting it from register 12 does not wrap. -/
theorem toNat_baseRegisterIndex (gate : Gate) :
    gate.baseRegisterIndex.toNat = 12 + gate.baseRegister.toNat := by
  have narrow : gate.baseRegister.toNat < 2 ^ 2 := gate.baseRegister.isLt
  have kept : (UInt8.ofNat gate.baseRegister.toNat).toNat = gate.baseRegister.toNat :=
    toNat_uint8_of_narrow _ (by decide)
  have twelve : firstBasicRegister.toNat = 12 := rfl
  rw [baseRegisterIndex, UInt8.toNat_add, kept, twelve, Nat.mod_eq_of_lt (by omega), Nat.add_comm]

/-- **The gate of five words follows the map**, row by row. -/
theorem followsMap_ofWords (words : GateWords) : (ofWords words).FollowsMap words where
  generalPermissions := by
    rw [(readsFields_ofWords words).generalPermissions, BitField.flag_eq_isSet _ rfl]
    rfl
  specialPermissions := by
    rw [(readsFields_ofWords words).specialPermissions, BitField.flag_eq_isSet _ rfl]
    rfl
  library := (readsFields_ofWords words).library.trans (BitField.flag_eq_isSet _ rfl _)
  gotoInhibit := (readsFields_ofWords words).gotoInhibit.trans (BitField.flag_eq_isSet _ rfl _)
  designatorInhibit :=
    (readsFields_ofWords words).designatorInhibit.trans (BitField.flag_eq_isSet _ rfl _)
  accessKeyInhibit :=
    (readsFields_ofWords words).accessKeyInhibit.trans (BitField.flag_eq_isSet _ rfl _)
  latentInhibit0 :=
    (readsFields_ofWords words).latentInhibit0.trans (BitField.flag_eq_isSet _ rfl _)
  latentInhibit1 :=
    (readsFields_ofWords words).latentInhibit1.trans (BitField.flag_eq_isSet _ rfl _)
  lockRing := (parts_of_composite _ (fieldView_ofWords words .accessLock)).1
  lockDomain := (parts_of_composite _ (fieldView_ofWords words .accessLock)).2
  targetLevel := fieldView_ofWords words .targetLevel
  targetIndex := fieldView_ofWords words .targetIndex
  targetOffset := fieldView_ofWords words .targetOffset
  baseRegister := fieldView_ofWords words .baseRegister
  baseRegisterIndex := by
    rw [toNat_baseRegisterIndex]
    exact congrArg (12 + ·) (fieldView_ofWords words .baseRegister)
  designator := isSet_designator_ofWords words
  privilege := privilege_designator_ofWords words
  basicMode := (isSet_designator_ofWords words 16).trans (Bool.true_and _)
  executiveRegisters := (isSet_designator_ofWords words 17).trans (Bool.true_and _)
  keyRing := (parts_of_composite _ (fieldView_ofWords words .newAccessKey)).1
  keyDomain := (parts_of_composite _ (fieldView_ofWords words .newAccessKey)).2
  latentParameter0 := fieldView_ofWords words .latentParameter0
  latentParameter1 := fieldView_ofWords words .latentParameter1

/-! ### Buffers -/

theorem decode_of_length_lt {buffer : List Word} (short : buffer.length < gateWordCount) :
    decode buffer = .error (.bufferTooShort buffer.length) := by
  unfold gateWordCount at short
  match buffer, short with
  | [], _ | [_], _ | [_, _], _ | [_, _, _], _ | [_, _, _, _], _ => rfl
  | _ :: _ :: _ :: _ :: _ :: _, short =>
    simp only [List.length_cons] at short
    omega

/-- A buffer that begins with five words decodes to their gate, whatever follows. -/
theorem decode_of_take_eq {buffer : List Word} {words : GateWords}
    (begins : buffer.take gateWordCount = words.toList) : decode buffer = .ok (ofWords words) := by
  have enough := congrArg List.length begins
  rw [List.length_take, Vector.length_toList] at enough
  match buffer, enough, begins with
  | first :: second :: third :: fourth :: fifth :: rest, _, begins =>
    have same : #v[first, second, third, fourth, fifth] = words :=
      Vector.toList_inj.mp begins
    rw [decode, ofFiveWords, same]

theorem exists_words {buffer : List Word} (enough : gateWordCount ≤ buffer.length) :
    ∃ words : GateWords, words.toList = buffer.take gateWordCount := by
  have length : (buffer.take gateWordCount).toArray.size = 5 := by
    rw [List.size_toArray, List.length_take, Nat.min_eq_left enough]
    rfl
  exact ⟨⟨(buffer.take gateWordCount).toArray, length⟩, rfl⟩

/-- **Decoding reads the field map, bit by bit.** A buffer is refused exactly when it has fewer than
five words, and the refusal names its length. Otherwise the gate is that of its first five words,
whatever follows them; each field shows the number of its run of bits, and each view follows its row
of the map. -/
theorem decode_reads_map (buffer : List Word) :
    (∀ error, decode buffer = .error error ↔
      buffer.length < gateWordCount ∧ error = .bufferTooShort buffer.length) ∧
    (gateWordCount ≤ buffer.length → ∃ words : GateWords,
      words.toList = buffer.take gateWordCount ∧
      decode buffer = .ok (ofWords words) ∧
      (∀ other : List Word, other.take gateWordCount = buffer.take gateWordCount →
        decode other = decode buffer) ∧
      (∀ field : GateField, (ofWords words).fieldView field =
        (words.get field.slot).number field.range.first field.range.last) ∧
      (ofWords words).FollowsMap words) := by
  constructor
  · intro error
    constructor
    · intro refused
      by_cases short : buffer.length < gateWordCount
      · rw [decode_of_length_lt short] at refused
        exact ⟨short, (Except.error.inj refused).symm⟩
      · obtain ⟨words, begins⟩ := exists_words (Nat.le_of_not_lt short)
        rw [decode_of_take_eq begins.symm] at refused
        cases refused
    · rintro ⟨short, rfl⟩
      exact decode_of_length_lt short
  · intro enough
    obtain ⟨words, begins⟩ := exists_words enough
    have decoded := decode_of_take_eq begins.symm
    refine ⟨words, begins, decoded, fun other same => ?_, fieldView_ofWords words,
      followsMap_ofWords words⟩
    rw [decoded, decode_of_take_eq (same.trans begins.symm)]

/-- Of six words the sixth does not count. -/
theorem decode_reads_map_of_six_words :
    gateWordCount ≤ [0o440777_600012, 0o512345_654321, 0o000376_400001, 1, 2, (3 : Word)].length ∧
    ∃ words : GateWords,
      words.toList = [0o440777_600012, 0o512345_654321, 0o000376_400001, 1, 2] ∧
      decode [0o440777_600012, 0o512345_654321, 0o000376_400001, 1, 2, 3] = .ok (ofWords words) ∧
      decode [0o440777_600012, 0o512345_654321, 0o000376_400001, 1, 2] = .ok (ofWords words) ∧
      (ofWords words).FollowsMap words := by
  obtain ⟨words, begins, decoded, others, _, rows⟩ := (decode_reads_map
    [0o440777_600012, 0o512345_654321, 0o000376_400001, 1, 2, 3]).2 (by decide)
  exact ⟨by decide, words, begins, decoded, (others _ rfl).trans decoded, rows⟩

end ControlWords.Gate
