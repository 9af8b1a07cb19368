/-
**Processing again what a session remembers.**

A session remembers the gate that its latest successful decoding gave and the interrupt that its
latest recognition gave. To process either again gives it once more and keeps it, whatever happened
in between:

* `decodedGates` and `recognizedInterrupts`: what the steps of a session gave, step by step;
* `run_remembers`: what one step remembers, by what it gave;
* `lastGate_finalState` and `lastInterrupt_finalState`: a session remembers the latest of it;
* `outcome_run`: the outcome of a step by what the session remembers and whether it traces;
* `reprocessing_stable`: what the steps that process again give, report and leave.
-/

import ControlWords.Proofs.Session.Log

namespace ControlWords.Session

/-! ### What the steps of a session gave -/

/-- The gate that a result gives to a step that decodes a buffer. -/
def Step.decoded? : Step → Result → Option Gate
  | .decode _, .gate gate => some gate
  | _, _ => none

/-- The interrupt that a result gives to a step that recognizes one for the first time. -/
def Step.recognized? : Step → Result → Option Interrupt
  | .recognize _, .interrupt interrupt => some interrupt
  | _, _ => none

/-- The gates that were decoded from buffers, in the order of steps. -/
def decodedGates (steps : List Step) : List Gate :=
  (steps.zip (outcomes steps)).filterMap fun entry => entry.1.decoded? entry.2.1.result

/-- The interrupts that were recognized for the first time, in the order of steps. -/
def recognizedInterrupts (steps : List Step) : List Interrupt :=
  (steps.zip (outcomes steps)).filterMap fun entry => entry.1.recognized? entry.2.1.result

/-! ### What is remembered -/

/-- A step remembers the gate that it decodes from a buffer and the interrupt that it recognizes,
and of what it does not give it remembers what was there before. What is processed again was
remembered before and is not counted once more. -/
theorem process_remembers (memory : Memory) (step : Step) :
    (memory.process step).2 =
      ⟨(step.decoded? (memory.process step).1).or memory.gate,
        (step.recognized? (memory.process step).1).or memory.interrupt⟩ := by
  cases step with
  | configure _ | recognize _ => rfl
  | decode buffer =>
    rw [Memory.process, Memory.decode]
    cases Gate.decode buffer <;> rfl
  | redecode =>
    rw [Memory.process_redecode]
    rfl
  | rerecognize =>
    rw [Memory.process_rerecognize]
    rfl

theorem run_remembers (session : Session) (step : Step) :
    (session.run step).2.memory =
      ⟨(step.decoded? (session.run step).1.result).or session.lastGate,
        (step.recognized? (session.run step).1.result).or session.lastInterrupt⟩ := by
  have effect := effect_run session step
  rw [effect.memory, effect.result]
  exact process_remembers session.memory step

/-- **A session remembers the gate of its latest successful decoding.** -/
theorem lastGate_finalState (steps : List Step) :
    (finalState run {} steps).lastGate = (decodedGates steps).getLast? := by
  have latest := finalState_latest run {} lastGate
    (fun step outcome => step.decoded? outcome.result)
    (fun session step => congrArg Memory.gate (run_remembers session step)) steps
  exact latest.trans Option.or_none

/-- **A session remembers the interrupt of its latest recognition.** -/
theorem lastInterrupt_finalState (steps : List Step) :
    (finalState run {} steps).lastInterrupt = (recognizedInterrupts steps).getLast? := by
  have latest := finalState_latest run {} lastInterrupt
    (fun step outcome => step.recognized? outcome.result)
    (fun session step => congrArg Memory.interrupt (run_remembers session step)) steps
  exact latest.trans Option.or_none

/-! ### Processing again -/

/-- The outcome of a step is made of the untraced result and of whether the session traces. -/
theorem outcome_run (session : Session) {step : Step} {result : Result} {memory : Memory}
    (processed : session.memory.process step = (result, memory)) :
    (session.run step).1 =
        ⟨result, if session.config.tracing then result.event?.toList else []⟩ ∧
      (session.run step).2.memory = memory := by
  have effect := effect_run session step
  have given : (session.run step).1.result = result := by rw [effect.result, processed]
  refine ⟨?_, by rw [effect.memory, processed]⟩
  show Outcome.mk (session.run step).1.result (session.run step).1.events = _
  rw [effect.events, given]

theorem run_redecode_of_none {session : Session} (absent : session.lastGate = none) :
    session.run .redecode = (⟨.nothing, []⟩, session) := by
  rw [run, absent]

theorem run_rerecognize_of_none {session : Session} (absent : session.lastInterrupt = none) :
    session.run .rerecognize = (⟨.nothing, []⟩, session) := by
  rw [run, absent]

/-- **Processing again is stable.** After any steps, decoding again gives the gate of the latest
successful decoding, remembers it still and reports its target while tracing is on; and recognizing
again gives the interrupt of the latest recognition, remembers it still and reports what recognizing
it reports under tracing. A refused buffer changes nothing that is remembered. Before the first
success there is nothing to process again: nothing is given, reported or changed. -/
theorem reprocessing_stable (steps : List Step) :
    let session := finalState run {} steps
    let traces := (latestConfig steps).tracing
    (∀ gate, (decodedGates steps).getLast? = some gate →
      (session.run .redecode).1 =
          ⟨.gate gate, if traces then [.gateDecoded gate.target] else []⟩ ∧
        (session.run .redecode).2.lastGate = some gate) ∧
    (∀ interrupt, (recognizedInterrupts steps).getLast? = some interrupt →
      (session.run .rerecognize).1 = ⟨.interrupt interrupt,
          if traces then (Interrupt.recognize { tracing := true } interrupt).2 else []⟩ ∧
        (session.run .rerecognize).2.lastInterrupt = some interrupt) ∧
    (∀ buffer error, Gate.decode buffer = .error error →
      (session.run (.decode buffer)).1.result = .refused error ∧
        (session.run (.decode buffer)).2.lastGate = session.lastGate ∧
        (session.run (.decode buffer)).2.lastInterrupt = session.lastInterrupt) ∧
    (decodedGates steps = [] → session.run .redecode = (⟨.nothing, []⟩, session)) ∧
    (recognizedInterrupts steps = [] →
      session.run .rerecognize = (⟨.nothing, []⟩, session)) := by
  intro session traces
  have tracing : session.config.tracing = traces :=
    congrArg Config.tracing (config_finalState steps)
  refine ⟨fun gate latest => ?_, fun interrupt latest => ?_, fun buffer error refused => ?_,
    fun none => ?_, fun none => ?_⟩
  · have remembered : session.memory.gate = some gate := (lastGate_finalState steps).trans latest
    have processed := session.memory.process_redecode
    rw [remembered] at processed
    obtain ⟨outcome, memory⟩ := session.outcome_run processed
    rw [tracing] at outcome
    exact ⟨outcome, (congrArg Memory.gate memory).trans remembered⟩
  · have remembered : session.memory.interrupt = some interrupt :=
      (lastInterrupt_finalState steps).trans latest
    have processed := session.memory.process_rerecognize
    rw [remembered] at processed
    obtain ⟨outcome, memory⟩ := session.outcome_run processed
    rw [tracing] at outcome
    exact ⟨outcome, (congrArg Memory.interrupt memory).trans remembered⟩
  · have processed :
        session.memory.process (.decode buffer) = (.refused error, session.memory) := by
      rw [Memory.process, Memory.decode, refused]
    obtain ⟨outcome, memory⟩ := session.outcome_run processed
    exact ⟨congrArg Outcome.result outcome, congrArg Memory.gate memory,
      congrArg Memory.interrupt memory⟩
  · apply run_redecode_of_none
    rw [lastGate_finalState, none, List.getLast?_nil]
  · apply run_rerecognize_of_none
    rw [lastInterrupt_finalState, none, List.getLast?_nil]

/-- A refused buffer, another recognition and a change of configuration come between a decoding and
the next one; in a new session there is nothing to process again. -/
theorem reprocessing_stable_after_refusal :
    let gate := Gate.ofFiveWords 0o440777_600012 0o512345_654321 0o000376_400001 1 2
    let fault : Interrupt := .stackFault (.ofArguments 1 25 0o1000)
    let steps : List Step := [.recognize (.invalidInstruction (.ofArguments 3)),
      .decode [0o440777_600012, 0o512345_654321, 0o000376_400001, 1, 2], .decode [1, 2, 3],
      .recognize fault, .redecode, .configure { tracing := true }]
    (decodedGates steps).getLast? = some gate ∧
    (recognizedInterrupts steps).getLast? = some fault ∧
    Gate.decode [4, 5] = .error (.bufferTooShort 2) ∧
    ((finalState run {} steps).run .redecode).1 = ⟨.gate gate, [.gateDecoded gate.target]⟩ ∧
    ((finalState run {} steps).run .rerecognize).1 =
      ⟨.interrupt fault, (Interrupt.recognize { tracing := true } fault).2⟩ ∧
    ((finalState run {} steps).run (.decode [4, 5])).2.lastGate =
      (finalState run {} steps).lastGate ∧
    decodedGates [] = [] ∧ recognizedInterrupts [] = [] ∧
    (run {} .redecode).1 = ⟨.nothing, []⟩ ∧ (run {} .rerecognize).1 = ⟨.nothing, []⟩ := by
  intro gate fault steps
  obtain ⟨redecode, rerecognize, refused, _⟩ := reprocessing_stable steps
  obtain ⟨_, _, _, noGate, noInterrupt⟩ := reprocessing_stable []
  refine ⟨rfl, rfl, rfl, (redecode gate rfl).1, (rerecognize fault rfl).1,
    (refused [4, 5] _ rfl).2.1, rfl, rfl, ?_, ?_⟩
  · exact congrArg Prod.fst (noGate rfl)
  · exact congrArg Prod.fst (noInterrupt rfl)

end ControlWords.Session
