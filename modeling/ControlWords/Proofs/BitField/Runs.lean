/-
**Programs of field steps, bit by bit.**

The fields of a program may overlap in any way. What counts for a bit of a word is the last
insertion whose run of bits contains it:

* `Step.writtenBit?` and `lastBit?`: the bit that a step, and a program, last writes at a place;
* `isSet_run`: one step sets exactly the bits that it writes;
* `isSet_finalState`: a program leaves at each place what was last written there, or what was there;
* `run_of_idle`: refused and reading steps change no word;
* `program_bits`: all of it, and that nothing is lost or gained by leaving out refused steps.
-/

import Mathlib.Data.List.Induction
import ControlWords.BitField.Lemmas
import ControlWords.BitField.Program
import ControlWords.Transcript

namespace ControlWords.BitField

/-! ### Steps and the bits that they write -/

namespace Step

/-- Whether the run of bits of a step is accepted. -/
def isAccepted (step : Step) : Bool :=
  match ofRange step.word step.first step.width with
  | .ok _ => true
  | .error _ => false

/-- Whether a step only reads. -/
def isReading (step : Step) : Bool :=
  match step.action with
  | .insert _ => false
  | .extract | .extractInPlace | .flag => true

/-- The run of bits of a step contains a bit of a word. -/
def Contains (step : Step) (slot bit : Nat) : Prop :=
  step.word = slot ∧ step.first.toNat ≤ bit ∧ bit ≤ step.first.toNat + step.width.toNat - 1

instance (step : Step) (slot bit : Nat) : Decidable (step.Contains slot bit) :=
  inferInstanceAs (Decidable (_ ∧ _))

/-- What a step writes into a bit of a word: the bit of the inserted value as far from its least
significant bit as the bit of the word is from the end of the run. -/
def writtenBit? (slot bit : Nat) (step : Step) : Option Bool :=
  match step.action with
  | .insert value =>
    if step.isAccepted ∧ step.Contains slot bit then
      some (value.toNat.testBit (step.first.toNat + step.width.toNat - 1 - bit))
    else
      none
  | .extract | .extractInPlace | .flag => none

end Step

/-- What a program writes last into a bit of a word, if it writes there at all. -/
def lastBit? (steps : List Step) (slot bit : Nat) : Option Bool :=
  steps.reverse.findSome? (Step.writtenBit? slot bit)

theorem lastBit?_append (steps : List Step) (step : Step) (slot bit : Nat) :
    lastBit? (steps ++ [step]) slot bit =
      (step.writtenBit? slot bit).or (lastBit? steps slot bit) := by
  rw [lastBit?, List.reverse_append, List.reverse_singleton, List.singleton_append,
    List.findSome?_cons]
  cases step.writtenBit? slot bit with
  | some written => rfl
  | none => rfl

/-! ### One step -/

variable (words : Array Word) (step : Step)

/-- **Refused and reading steps change no word.** -/
theorem run_of_idle {words : Array Word} {step : Step}
    (idle : step.isAccepted = false ∨ step.isReading = true) : (step.run words).2 = words := by
  obtain ⟨word, first, width, action⟩ := step
  simp only [Step.isAccepted, Step.isReading, Step.run] at idle ⊢
  cases accepted : ofRange word first width with
  | error reason => rfl
  | ok field =>
    rw [accepted] at idle
    cases action with
    | insert value => rcases idle with refused | reads <;> contradiction
    | extract | extractInPlace | flag => rfl

/-- A step that is neither refused nor reading inserts a value into a field. -/
theorem exists_insert_of_not_idle {step : Step}
    (active : ¬ (step.isAccepted = false ∨ step.isReading = true)) :
    ∃ field value, ofRange step.word step.first step.width = .ok field ∧
      step.action = .insert value := by
  unfold Step.isAccepted Step.isReading at active
  rcases accepted : ofRange step.word step.first step.width with reason | field
  · rw [accepted] at active
    exact absurd (.inl rfl) active
  · cases action : step.action with
    | insert value => exact ⟨field, value, rfl, rfl⟩
    | extract | extractInPlace | flag =>
      rw [action] at active
      exact absurd (.inr rfl) active

theorem size_run : (step.run words).2.size = words.size := by
  unfold Step.run
  split
  · rfl
  · cases step.action with
    | insert value => exact Array.size_setIfInBounds
    | extract | extractInPlace | flag => rfl

/-- A word of an array in which one word is replaced. -/
theorem getD_setIfInBounds {place slot : Nat} (inside : slot < words.size) (stored : Word) :
    (words.setIfInBounds place stored).getD slot 0 =
      if place = slot then stored else words.getD slot 0 := by
  rw [Array.getD_eq_getD_getElem?, Array.getD_eq_getD_getElem?, Array.getElem?_setIfInBounds]
  by_cases same : place = slot
  · subst same
    rw [if_pos rfl, if_pos inside, if_pos rfl]
    rfl
  · rw [if_neg same, if_neg same]

/-- An insertion into a word of an array sets the bits of its field from the value. -/
theorem isSet_perform_insert (field : BitField) (value : UInt64) {slot : Nat}
    (inside : slot < words.size) (bit : Nat) :
    ((field.perform words (.insert value)).2.getD slot 0).isSet bit =
      if field.word = slot ∧ field.first ≤ bit ∧ bit ≤ field.last then
        value.toNat.testBit (field.last - bit)
      else
        (words.getD slot 0).isSet bit := by
  rw [perform, getD_setIfInBounds words inside]
  by_cases here : field.word = slot
  · simp only [here, if_true, isSet_insert, true_and]
  · rw [if_neg here, if_neg fun both => here both.1]

/-- An accepted insertion writes the bits of its field. -/
theorem writtenBit?_of_accepted {step : Step} {field : BitField} {value : UInt64}
    (accepted : ofRange step.word step.first step.width = .ok field)
    (inserts : step.action = .insert value) (slot bit : Nat) :
    step.writtenBit? slot bit =
      if field.word = slot ∧ field.first ≤ bit ∧ bit ≤ field.last then
        some (value.toNat.testBit (field.last - bit))
      else
        none := by
  obtain ⟨sameWord, sameFirst, sameWidth⟩ := ofRange_eq_ok_iff.mp accepted
  have allowed : step.isAccepted = true := by rw [Step.isAccepted, accepted]
  simp only [Step.writtenBit?, inserts, allowed, true_and, Step.Contains, last, sameWord, sameFirst,
    sameWidth]

theorem writtenBit?_of_idle {step : Step} (idle : step.isAccepted = false ∨ step.isReading = true)
    (slot bit : Nat) : step.writtenBit? slot bit = none := by
  unfold Step.writtenBit?
  cases action : step.action with
  | insert value =>
    rw [Step.isReading, action] at idle
    rcases idle with refused | reads
    · exact if_neg fun both => Bool.false_ne_true (refused.symm.trans both.1)
    · cases reads
  | extract | extractInPlace | flag => rfl

/-- **A step sets the bits that it writes and keeps all others.** -/
theorem isSet_run {slot : Nat} (inside : slot < words.size) (bit : Nat) :
    ((step.run words).2.getD slot 0).isSet bit =
      (step.writtenBit? slot bit).getD ((words.getD slot 0).isSet bit) := by
  by_cases idle : step.isAccepted = false ∨ step.isReading = true
  · rw [run_of_idle idle, writtenBit?_of_idle idle, Option.getD_none]
  · obtain ⟨field, value, accepted, inserts⟩ := exists_insert_of_not_idle idle
    have stored : step.run words = field.perform words (.insert value) := by
      rw [Step.run, accepted, inserts]
    rw [stored, isSet_perform_insert words field value inside,
      writtenBit?_of_accepted accepted inserts]
    split <;> rfl

/-! ### Whole programs -/

variable (steps : List Step)

theorem size_finalState : (finalState Step.run words steps).size = words.size :=
  finalState_induction Step.run words (fun state => state.size = words.size)
    (fun state same step _ => (size_run state step).trans same) rfl

/-- **A program leaves in each bit what it last writes there**, or what was there at the start. The
last step is the first to be asked. -/
theorem isSet_finalState {slot : Nat} (inside : slot < words.size) (bit : Nat) :
    ((finalState Step.run words steps).getD slot 0).isSet bit =
      (lastBit? steps slot bit).getD ((words.getD slot 0).isSet bit) := by
  induction steps using List.reverseRecOn with
  | nil => rfl
  | append_singleton steps step ih =>
    have there : slot < (finalState Step.run words steps).size := by
      rw [size_finalState]
      exact inside
    rw [finalState_append, finalState_cons, lastBit?_append]
    refine (isSet_run _ step there bit).trans ?_
    rw [ih]
    cases step.writtenBit? slot bit with
    | some written => rfl
    | none => rfl

/-- **Programs of field steps set single bits.** After a program each bit of each word is the one
that was last inserted there by an accepted step, or the one from the start. Refused and reading
steps change no word, and without the refused steps all other steps give the same replies and the
same words. No insertion makes a number too large for a word, so every word that a program leaves
behind is the value that was merged, with nothing cut off. -/
theorem program_bits (words : Array Word) :
    (∀ (steps : List Step) (slot : Fin words.size), ∃ word : Word,
      (finalState Step.run words steps)[slot.val]? = some word ∧
      ∀ bit, word.isSet bit = (lastBit? steps slot bit).getD (words[slot].isSet bit)) ∧
    (∀ (state : Array Word) (step : Step), step.isAccepted = false ∨ step.isReading = true →
      (step.run state).2 = state) ∧
    (∀ steps : List Step,
      ((steps.zip (runProgram words steps)).filter fun entry => entry.1.isAccepted).map Prod.snd =
        runProgram words (steps.filter Step.isAccepted)) ∧
    (∀ (field : BitField) (target : Word) (value : UInt64),
      (field.insert target value).toNat = (field.merge target value).toNat ∧
        (field.merge target value).toNat < 2 ^ 36) ∧
    (∀ steps : List Step, ∀ entry ∈ runProgram words steps, ∀ word ∈ entry.2,
      word.toUInt64.toNat < 2 ^ 36) := by
  refine ⟨fun steps slot => ?_, fun _ _ => run_of_idle, fun steps => ?_,
    fun field target value => ⟨field.toNat_insert target value, field.merge_lt target value⟩,
    fun _ _ _ word _ => ?_⟩
  · have there : slot.val < (finalState Step.run words steps).size := by
      rw [size_finalState]
      exact slot.isLt
    refine ⟨_, Array.getElem?_eq_getElem there, fun bit => ?_⟩
    have final := isSet_finalState words steps slot.isLt bit
    rw [Array.getD, Array.getD, dif_pos there, dif_pos slot.isLt] at final
    exact final
  · exact transcript_filter Step.run words Step.isAccepted
      (fun _ _ refused => run_of_idle (.inl refused)) steps
  · rw [Word.toNat_toUInt64]
    exact word.isLt

/-- A run that leaves the word is refused, and of two overlapping insertions the later one sets the
bits that they share. -/
theorem program_bits_of_overlap :
    (Step.mk 0 30 10 (.insert 5)).isAccepted = false ∧
    ((Step.mk 0 30 10 (.insert 5)).run #[7, 8]).2 = #[7, 8] ∧
    (Reply.refused .outsideWord, #[7, 8]) ∈ runProgram #[7, 8] [⟨0, 30, 10, .insert 5⟩] ∧
    (8 : Word) ∈ #[(7 : Word), 8] ∧ (8 : Word).toUInt64.toNat < 2 ^ 36 ∧
    ∃ word, (finalState Step.run #[7, 8]
        [⟨0, 24, 8, .insert 0x1A5⟩, ⟨0, 30, 10, .insert 5⟩, ⟨0, 28, 8, .insert 0xF0⟩])[0]? =
          some word ∧
      word.isSet 24 = true ∧ word.isSet 29 = true ∧ word.isSet 35 = false := by
  obtain ⟨bits, idle, _, _, small⟩ := program_bits #[7, 8]
  have refused : (Step.mk 0 30 10 (.insert 5)).isAccepted = false := by decide
  have entry : (Reply.refused .outsideWord, #[7, 8]) ∈
      runProgram #[7, 8] [⟨0, 30, 10, .insert 5⟩] := by decide
  have member : (8 : Word) ∈ #[(7 : Word), 8] := by simp
  obtain ⟨word, final, each⟩ := bits
    [⟨0, 24, 8, .insert 0x1A5⟩, ⟨0, 30, 10, .insert 5⟩, ⟨0, 28, 8, .insert 0xF0⟩] ⟨0, by decide⟩
  refine ⟨refused, idle #[7, 8] _ (.inl refused), entry, member, small _ _ entry _ member, word,
    final, (each 24).trans ?_, (each 29).trans ?_, (each 35).trans ?_⟩
  · decide
  · decide
  · decide

end ControlWords.BitField
