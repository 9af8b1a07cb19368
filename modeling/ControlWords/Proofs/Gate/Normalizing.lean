/-
**Normalizing is not observed.**

Normalizing the words of a gate clears the bits outside the field map. Nothing that reads fields or
decodes can tell whether it was done, at any point of any program:

* `AgreeOnMap`: two sets of five words have the same mapped bits;
* `agreeOnMap_run` and `reading_eq_of_agreeOnMap`: every step keeps agreement, and a reading step
  gives the same reply from words that agree;
* `Edit`: a program together with a choice of its normalizing steps to erase;
* `readings_eq_of_agreeOnMap` and `agreeOnMap_finalState`: the program with and without these steps;
* `Clean`: no unmapped bit is set, which is what normalizing reaches and all steps but those that
  overwrite a word keep;
* `normalizing_unobservable`: all of it, along whole programs.
-/

import ControlWords.Proofs.Gate.Equality
import ControlWords.Transcript

namespace ControlWords.Gate

open GateField (load store Mapped)

/-! ### Words that agree on the map -/

/-- Two sets of five words have the same mapped bits. -/
def AgreeOnMap (first second : GateWords) : Prop :=
  ∀ slot bit, Mapped slot bit → (first.get slot).isSet bit = (second.get slot).isSet bit

namespace AgreeOnMap

variable {first second third : GateWords}

theorem refl (words : GateWords) : AgreeOnMap words words :=
  fun _ _ _ => rfl

theorem trans (left : AgreeOnMap first second) (right : AgreeOnMap second third) :
    AgreeOnMap first third :=
  fun slot bit mapped => (left slot bit mapped).trans (right slot bit mapped)

/-- Writing a field sets the same bits from the same value in both. -/
theorem store (agree : AgreeOnMap first second) (field : GateField) (value : UInt64) :
    AgreeOnMap (field.store first value) (field.store second value) := by
  intro slot bit mapped
  rw [GateField.isSet_store, GateField.isSet_store, agree slot bit mapped]

/-- Overwriting a word hides what was in it, mapped or not. -/
theorem set (agree : AgreeOnMap first second) (slot : Fin 5) (word : Word) :
    AgreeOnMap (first.set slot.val word slot.isLt) (second.set slot.val word slot.isLt) := by
  intro other bit mapped
  show (first.set slot.val word slot.isLt)[other.val].isSet bit =
    (second.set slot.val word slot.isLt)[other.val].isSet bit
  rw [Vector.getElem_set, Vector.getElem_set]
  split
  · rfl
  · exact agree other bit mapped

end AgreeOnMap

theorem agreeOnMap_normalize (words : GateWords) : AgreeOnMap (normalize words) words := by
  intro slot bit mapped
  rw [normalize, isSet_toWords_ofWords, decide_eq_true mapped, Bool.true_and]

/-- **Every step keeps agreement on the map.** -/
theorem agreeOnMap_run {first second : GateWords} (agree : AgreeOnMap first second) (step : Step) :
    AgreeOnMap (Step.run first step).2 (Step.run second step).2 := by
  cases step with
  | setField field value => exact agree.store field value
  | getField field => exact agree
  | setWord slot word => exact agree.set slot word
  | decode => exact agree
  | normalize =>
    have same : ofWords first = ofWords second := ofWords_eq_iff_mapped.mpr agree
    show AgreeOnMap (normalize first) (normalize second)
    rw [normalize, normalize, same]
    exact .refl _

/-! ### Readings -/

/-- Whether a step reads the words and changes nothing. -/
def Step.isReading : Step → Bool
  | .getField _ | .decode => true
  | .setField .. | .setWord .. | .normalize => false

/-- The replies to the reading steps of a program, in order. -/
def readings (words : GateWords) (program : List Step) : List Reply :=
  ((program.zip (runProgram words program)).filter fun entry => entry.1.isReading).map
    fun entry => entry.2.1

theorem readings_cons (words : GateWords) (step : Step) (rest : List Step) :
    readings words (step :: rest) =
      (if step.isReading then [(Step.run words step).1] else []) ++
        readings (Step.run words step).2 rest := by
  rw [readings, runProgram, transcript, List.zip_cons_cons, List.filter_cons]
  cases step.isReading with
  | true => rfl
  | false => rfl

/-- A reading step gives the same reply from words that agree on the map. -/
theorem reading_eq_of_agreeOnMap {first second : GateWords} (agree : AgreeOnMap first second)
    {step : Step} (reads : step.isReading = true) :
    (Step.run first step).1 = (Step.run second step).1 := by
  cases step with
  | getField field => exact congrArg Reply.number (GateField.forall_load_eq_iff.mpr agree field)
  | decode => exact congrArg Reply.gate (ofWords_eq_iff_mapped.mpr agree)
  | setField _ _ | setWord _ _ | normalize => cases reads

/-! ### Erasing normalizing steps -/

/-- A step of a program some of whose normalizing steps are to be erased. -/
inductive Edit where
  | keep (step : Step)
  /-- A normalizing step that is erased. -/
  | erase
deriving DecidableEq, Repr

namespace Edit

/-- The step before erasing. -/
def step : Edit → Step
  | keep step => step
  | erase => .normalize

/-- The step after erasing, if it stays. -/
def kept? : Edit → Option Step
  | keep step => some step
  | erase => none

/-- The program with all its steps. -/
def whole (edits : List Edit) : List Step :=
  edits.map step

/-- The program without the erased steps. -/
def shortened (edits : List Edit) : List Step :=
  edits.filterMap kept?

end Edit

variable {first second : GateWords} (edits : List Edit)

/-- **Erasing normalizing steps keeps every reading**, from words that agree on the map: the step
that only one of the two programs takes keeps the mapped bits. -/
theorem readings_eq_of_agreeOnMap (agree : AgreeOnMap first second) :
    readings first (Edit.whole edits) = readings second (Edit.shortened edits) := by
  induction edits generalizing first second with
  | nil => rfl
  | cons edit rest ih =>
    cases edit with
    | keep step =>
      have later := ih (agreeOnMap_run agree step)
      show readings first (step :: Edit.whole rest) = readings second (step :: Edit.shortened rest)
      rw [readings_cons, readings_cons, later]
      cases reads : step.isReading with
      | true => rw [reading_eq_of_agreeOnMap agree reads]
      | false => rfl
    | erase =>
      show readings first (.normalize :: Edit.whole rest) = readings second (Edit.shortened rest)
      rw [readings_cons]
      exact ih ((agreeOnMap_normalize first).trans agree)

/-- **Erasing normalizing steps keeps every mapped bit**, from words that agree on the map. -/
theorem agreeOnMap_finalState (agree : AgreeOnMap first second) :
    AgreeOnMap (finalState Step.run first (Edit.whole edits))
      (finalState Step.run second (Edit.shortened edits)) := by
  induction edits generalizing first second with
  | nil => exact agree
  | cons edit rest ih =>
    cases edit with
    | keep step =>
      show AgreeOnMap (finalState Step.run first (step :: Edit.whole rest))
        (finalState Step.run second (step :: Edit.shortened rest))
      rw [finalState_cons, finalState_cons]
      exact ih (agreeOnMap_run agree step)
    | erase =>
      show AgreeOnMap (finalState Step.run first (.normalize :: Edit.whole rest))
        (finalState Step.run second (Edit.shortened rest))
      rw [finalState_cons]
      exact ih ((agreeOnMap_normalize first).trans agree)

/-! ### Clean words -/

/-- No bit outside the map is set. -/
def Clean (words : GateWords) : Prop :=
  ∀ slot bit, (words.get slot).isSet bit = true → Mapped slot bit

theorem clean_normalize (words : GateWords) : Clean (normalize words) := by
  intro slot bit isSet
  rw [normalize, isSet_toWords_ofWords, Bool.and_eq_true] at isSet
  exact of_decide_eq_true isSet.1

/-- **Normalizing changes nothing exactly when no bit outside the map is set.** -/
theorem normalize_eq_iff {words : GateWords} : normalize words = words ↔ Clean words := by
  constructor
  · intro same
    rw [← same]
    exact clean_normalize words
  · intro clean
    apply GateField.words_eq_of_isSet_eq
    intro slot bit
    rw [normalize, isSet_toWords_ofWords]
    cases isSet : (words.get slot).isSet bit with
    | true => rw [decide_eq_true (clean slot bit isSet), Bool.true_and]
    | false => rw [Bool.and_false]

/-- Whether a step overwrites a word as a whole. -/
def Step.overwrites : Step → Bool
  | .setWord .. => true
  | .setField .. | .getField _ | .decode | .normalize => false

/-- **Every step that does not overwrite a word keeps clean words clean.** -/
theorem clean_run {words : GateWords} (clean : Clean words) {step : Step}
    (within : step.overwrites = false) : Clean (Step.run words step).2 := by
  cases step with
  | setField field value =>
    intro slot bit isSet
    rw [show (Step.run words (.setField field value)).2 = field.store words value from rfl,
      GateField.isSet_store] at isSet
    split at isSet
    · rename_i covers
      exact ⟨field, covers⟩
    · exact clean slot bit isSet
  | getField _ | decode => exact clean
  | setWord _ _ => cases within
  | normalize => exact clean_normalize words

/-- A normalizing step finds the gate the same, and the words changed unless they were clean. -/
theorem run_normalize (words : GateWords) :
    Step.run words .normalize = (.normalized (normalize words ≠ words) true, normalize words) := by
  have same : ofWords (normalize words) = ofWords words :=
    ofWords_eq_iff_mapped.mpr (agreeOnMap_normalize words)
  rw [Step.run, decide_eq_true same]

/-- Words are not clean exactly when some bit outside the map is set. -/
theorem not_clean_iff {words : GateWords} :
    ¬ Clean words ↔ ∃ slot bit, ¬ Mapped slot bit ∧ (words.get slot).isSet bit = true := by
  simp only [Clean, not_forall, exists_prop, and_comm]

/-! ### Whole programs -/

/-- **Normalizing is not observed by any program.** Erasing some of its normalizing steps leaves the
replies to all reading steps as they are, and at corresponding points the words of both programs
agree on the map. A normalizing step, wherever it stands, finds the gate the same, and it finds the
words changed exactly when a bit outside the map was set; so it never does where no word was
overwritten since an earlier normalizing step. -/
theorem normalizing_unobservable (words : GateWords) :
    (∀ edits : List Edit,
      readings words (Edit.whole edits) = readings words (Edit.shortened edits) ∧
      ∀ count, AgreeOnMap (finalState Step.run words (Edit.whole (edits.take count)))
        (finalState Step.run words (Edit.shortened (edits.take count)))) ∧
    (∀ before after : List Step, ∃ changed : Bool,
      (runProgram words (before ++ .normalize :: after))[before.length]? =
        some (.normalized changed true, normalize (finalState Step.run words before)) ∧
      (changed = true ↔ ∃ slot bit, ¬ Mapped slot bit ∧
        ((finalState Step.run words before).get slot).isSet bit = true)) ∧
    (∀ before between after : List Step, (∀ step ∈ between, step.overwrites = false) →
      (runProgram words ((before ++ .normalize :: between) ++ .normalize :: after))[
          (before ++ .normalize :: between).length]? =
        some (.normalized false true,
          finalState Step.run words (before ++ .normalize :: between))) := by
  refine ⟨fun edits => ⟨?_, fun count => ?_⟩, fun before after => ?_,
    fun before between after within => ?_⟩
  · exact readings_eq_of_agreeOnMap edits (.refl words)
  · exact agreeOnMap_finalState (edits.take count) (.refl words)
  · refine ⟨_, (getElem?_transcript_append _ _ _ _ _).trans (congrArg some (run_normalize _)), ?_⟩
    rw [decide_eq_true_iff, ne_eq, normalize_eq_iff, not_clean_iff]
  · have clean : Clean (finalState Step.run words (before ++ .normalize :: between)) := by
      rw [finalState_append, finalState_cons]
      exact finalState_induction _ _ Clean
        (fun state clean step member => clean_run clean (within step member)) (clean_normalize _)
    have same := normalize_eq_iff.mpr clean
    rw [runProgram, getElem?_transcript_append, run_normalize, same,
      decide_eq_false (not_not_intro rfl)]

/-- Writing a field and decoding between two normalizing steps leaves the second nothing to change,
though the words begin with every bit set. -/
theorem normalizing_unobservable_between_writes :
    (∀ step ∈ [Step.setField .targetLevel 5, .decode], step.overwrites = false) ∧
    (runProgram (Vector.replicate 5 (-1))
        (([] ++ .normalize :: [.setField .targetLevel 5, .decode]) ++ .normalize :: []))[3]? =
      some (.normalized false true, finalState Step.run (Vector.replicate 5 (-1))
        ([] ++ .normalize :: [.setField .targetLevel 5, .decode])) := by
  have within : ∀ step ∈ [Step.setField .targetLevel 5, .decode], step.overwrites = false := by
    decide
  exact ⟨within, (normalizing_unobservable (Vector.replicate 5 (-1))).2.2 [] _ [] within⟩

end ControlWords.Gate
