/-
**The log is complete, ordered and exact.**

The log of a session is what its steps report, one after the other, and a step reports the event of
its result exactly when it processes something while the latest configuration traces:

* `log_finalState` and `log_prefix_append`: the log collects the events of the steps and only grows;
* `latestConfig` and `config_finalState`: the configuration, by the steps that set one alone;
* `Step.applies` and `isSome_event?_run`: which steps have something to process;
* `Logged` and `logged_run`: what each step reports and what the log is after it;
* `log_complete_and_exact`: all of it, along whole sessions.
-/

import ControlWords.Proofs.Session.Steps

namespace ControlWords.Session

/-! ### The log of a session -/

/-- **The log is what the steps report**, one after the other. -/
theorem log_finalState (steps : List Step) :
    (finalState run {} steps).log = (outcomes steps).flatMap fun entry => entry.1.events :=
  finalState_accumulate run {} (fun session step => (effect_run session step).log) steps

theorem outcomes_append (before after : List Step) :
    outcomes (before ++ after) =
      outcomes before ++ transcript run (finalState run {} before) after :=
  transcript_append run {} before after

/-- **The log only grows.** -/
theorem log_prefix_append (before after : List Step) :
    (finalState run {} before).log <+: (finalState run {} (before ++ after)).log := by
  rw [log_finalState, log_finalState, outcomes_append, List.flatMap_append]
  exact List.prefix_append _ _

/-! ### Whether tracing is on -/

/-- The configuration after some steps: the latest that one of them sets, or that of a new session,
which does not trace, if none does. -/
def latestConfig (steps : List Step) : Config :=
  (steps.filterMap Step.configuration?).getLast?.getD { tracing := false }

theorem config_finalState (steps : List Step) :
    (finalState run {} steps).config = latestConfig steps := by
  have keeps : ∀ (session : Session) (step : Step), some (session.run step).2.config =
      step.configuration?.or (some session.config) := fun session step => by
    rw [(effect_run session step).config, Option.or_some]
  have latest := finalState_latest run {} (fun session => some session.config)
    (fun step _ => step.configuration?) keeps steps
  rw [filterMap_zip_transcript, Option.or_some] at latest
  exact Option.some.inj latest

/-! ### Which steps process something -/

/-- Whether a step has something to decode or to recognize. -/
def Step.applies (session : Session) : Step → Bool
  | .configure _ => false
  | .decode _ | .recognize _ => true
  | .redecode => session.lastGate.isSome
  | .rerecognize => session.lastInterrupt.isSome

/-- The result of a step calls for an event exactly when the step has something to process. -/
theorem isSome_event?_run (session : Session) (step : Step) :
    (session.run step).1.result.event?.isSome = step.applies session := by
  rw [(effect_run session step).result]
  cases step with
  | configure _ | recognize _ => rfl
  | decode buffer =>
    rw [Memory.process, Memory.decode]
    cases Gate.decode buffer <;> rfl
  | redecode =>
    rw [Memory.process_redecode, Step.applies, ← memory_gate]
    cases session.memory.gate <;> rfl
  | rerecognize =>
    rw [Memory.process_rerecognize, Step.applies, ← memory_interrupt]
    cases session.memory.interrupt <;> rfl

/-- Only a buffer of fewer than five words calls for a rejection, which gives its exact length. -/
theorem event?_run_eq_gateRejected_iff (session : Session) (step : Step) (length : UInt64) :
    (session.run step).1.result.event? = some (.gateRejected length) ↔
      ∃ buffer, step = .decode buffer ∧ buffer.length < gateWordCount ∧
        length.toNat = buffer.length := by
  rw [(effect_run session step).result]
  cases step with
  | configure _ | recognize _ => exact ⟨nofun, nofun⟩
  | decode buffer =>
    rw [Memory.process]
    by_cases short : buffer.length < gateWordCount
    · have fits : buffer.length < 2 ^ 64 := Nat.lt_trans short (by decide)
      have exactLength : (UInt64.ofNat buffer.length).toNat = buffer.length :=
        UInt64.toNat_ofNat_of_lt' fits
      rw [Memory.decode_of_length_lt _ short]
      constructor
      · intro rejected
        cases rejected
        exact ⟨buffer, rfl, short, exactLength⟩
      · rintro ⟨other, equal, _, same⟩
        cases equal
        rw [← exactLength] at same
        rw [UInt64.toNat_inj.mp same]
        rfl
    · obtain ⟨gate, decoded⟩ := session.memory.exists_decode_eq (Nat.le_of_not_lt short)
      rw [decoded]
      refine ⟨nofun, ?_⟩
      rintro ⟨other, equal, refused, _⟩
      cases equal
      exact absurd refused short
  | redecode =>
    rw [Memory.process_redecode]
    cases session.memory.gate <;> exact ⟨nofun, nofun⟩
  | rerecognize =>
    rw [Memory.process_rerecognize]
    cases session.memory.interrupt <;> exact ⟨nofun, nofun⟩

/-! ### What each step reports -/

/-- What a step reports after those before it, and what the log is then. -/
structure Logged (before : List Step) (step : Step) (outcome : Outcome) (next : Session) :
    Prop where
  /-- A step reports the event of its result, if it has one, while tracing is on. -/
  events : outcome.events =
    if (latestConfig before).tracing then outcome.result.event?.toList else []
  /-- Results have an event exactly where the step has something to process. -/
  applies : outcome.result.event?.isSome = step.applies (finalState run {} before)
  /-- A rejection is of a buffer of fewer than five words and gives its exact length. -/
  rejected : ∀ length, outcome.result.event? = some (.gateRejected length) ↔
    ∃ buffer, step = .decode buffer ∧ buffer.length < gateWordCount ∧
      length.toNat = buffer.length
  atMostOne : outcome.events.length ≤ 1
  /-- What was in the log stays at its beginning. -/
  log : next.log = (finalState run {} before).log ++ outcome.events
  /-- The log holds as many events as the steps so far have reported. -/
  count : next.log.length =
    ((outcomes (before ++ [step])).flatMap fun entry => entry.1.events).length

theorem logged_run (before : List Step) (step : Step) :
    Logged before step ((finalState run {} before).run step).1
      ((finalState run {} before).run step).2 := by
  have effect := effect_run (finalState run {} before) step
  have events := effect.events
  rw [config_finalState] at events
  have reached :
      ((finalState run {} before).run step).2 = finalState run {} (before ++ [step]) := by
    rw [finalState_append]
    rfl
  have rejected := event?_run_eq_gateRejected_iff (finalState run {} before) step
  refine ⟨events, isSome_event?_run _ step, rejected, ?_, effect.log, ?_⟩
  · rw [events]
    split
    · exact Option.length_toList_le
    · exact Nat.zero_le _
  · rw [reached, log_finalState]

/-! ### Whole sessions -/

/-- **The log is complete, ordered and exact.** The log of a session is the concatenation of what
its steps report, in their order. Each step reports the one event of its result if it decodes or
recognizes something while the latest configuration traces, and reports nothing otherwise. No step
changes what is in the log already. -/
theorem log_complete_and_exact :
    (∀ steps : List Step, (finalState run {} steps).log =
      (outcomes steps).flatMap fun entry => entry.1.events) ∧
    (∀ (before : List Step) (step : Step) (after : List Step), ∃ outcome next,
      (outcomes (before ++ step :: after))[before.length]? = some (outcome, next) ∧
      Logged before step outcome next) ∧
    (∀ before after : List Step,
      (finalState run {} before).log <+: (finalState run {} (before ++ after)).log) :=
  ⟨log_finalState, fun before step after =>
    ⟨_, _, getElem?_transcript_append run {} before step after, logged_run before step⟩,
    log_prefix_append⟩

end ControlWords.Session
