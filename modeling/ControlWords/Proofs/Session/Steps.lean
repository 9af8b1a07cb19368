/-
**What a step of a session does, with tracing and without.**

A session is a machine without tracing that has a configuration and a log beside it:

* `Memory` is what a session remembers, and `Memory.process` takes a step on it without tracing: it
  knows of no configuration and reports no event;
* `Result.event?` is the event that the result of a step calls for;
* `Effect` and `effect_run`: a step gives and remembers what the untraced step does, and logs the
  event of its result while tracing is on;
* `decode_toWords` and `process_redecode`: what is remembered of a gate decodes to this gate, so
  that decoding it again changes nothing.

Configurations and the log do not flow into what a session gives or remembers. Two sessions that
differ only in where and how they are configured give the same:

* `Step.configures` and `results`: the steps that configure, and the results of all others;
* `results_eq_process` and `memory_finalState`: these results, and what is remembered at the end,
  are those of the machine without tracing over the other steps alone;
* `tracing_transparent`: so they are equal for any two sessions with the same other steps.
-/

import ControlWords.Proofs.Gate.Decoding
import ControlWords.Session
import ControlWords.Transcript

namespace ControlWords

/-- The words of a gate are a buffer of the gate. -/
theorem Gate.decode_toWords (gate : Gate) : decode gate.toWords.toList = .ok gate := by
  have whole : gate.toWords.toList.take gateWordCount = gate.toWords.toList :=
    List.take_of_length_le (Nat.le_of_eq gate.toWords.length_toList)
  rw [decode_of_take_eq whole, ofWords_toWords]

namespace Session

/-! ### Steps without tracing -/

/-- What a session remembers. -/
structure Memory where
  /-- The gate that was last decoded. -/
  gate : Option Gate := none
  /-- The interrupt that was last recognized. -/
  interrupt : Option Interrupt := none
deriving DecidableEq, Repr

/-- What is remembered of a session when its configuration and log are forgotten. -/
def memory (session : Session) : Memory where
  gate := session.lastGate
  interrupt := session.lastInterrupt

@[simp] theorem memory_gate (session : Session) : session.memory.gate = session.lastGate :=
  rfl

@[simp] theorem memory_interrupt (session : Session) :
    session.memory.interrupt = session.lastInterrupt :=
  rfl

namespace Memory

/-- Decodes a buffer and remembers its gate; a refused buffer is forgotten. -/
def decode (memory : Memory) (buffer : List Word) : Result × Memory :=
  match Gate.decode buffer with
  | .ok gate => (.gate gate, { memory with gate := some gate })
  | .error error => (.refused error, memory)

/-- Takes a step without tracing, for which a configuration is of no effect. -/
def process (memory : Memory) : Step → Result × Memory
  | .configure config => (.configured config, memory)
  | .decode buffer => memory.decode buffer
  | .redecode =>
    match memory.gate with
    | some gate => memory.decode gate.toWords.toList
    | none => (.nothing, memory)
  | .recognize interrupt => (.interrupt interrupt, { memory with interrupt := some interrupt })
  | .rerecognize =>
    match memory.interrupt with
    | some interrupt => (.interrupt interrupt, memory)
    | none => (.nothing, memory)

theorem decode_of_length_lt (memory : Memory) {buffer : List Word}
    (short : buffer.length < gateWordCount) :
    memory.decode buffer = (.refused (.bufferTooShort buffer.length), memory) := by
  rw [decode, Gate.decode_of_length_lt short]

/-- A buffer that is long enough gives a gate, which is remembered. -/
theorem exists_decode_eq (memory : Memory) {buffer : List Word}
    (enough : gateWordCount ≤ buffer.length) :
    ∃ gate, memory.decode buffer = (.gate gate, { memory with gate := some gate }) := by
  obtain ⟨words, begins⟩ := Gate.exists_words enough
  exact ⟨.ofWords words, by rw [decode, Gate.decode_of_take_eq begins.symm]⟩

theorem decode_toWords (memory : Memory) (gate : Gate) :
    memory.decode gate.toWords.toList = (.gate gate, { memory with gate := some gate }) := by
  rw [decode, Gate.decode_toWords]

/-- **Decoding a remembered gate again** gives this gate and changes nothing that is remembered. -/
theorem process_redecode (memory : Memory) :
    memory.process .redecode = (memory.gate.elim .nothing .gate, memory) := by
  obtain ⟨gate?, interrupt⟩ := memory
  cases gate? with
  | none => rfl
  | some gate => exact decode_toWords ⟨some gate, interrupt⟩ gate

/-- Recognizing a remembered interrupt again gives it and changes nothing that is remembered. -/
theorem process_rerecognize (memory : Memory) :
    memory.process .rerecognize = (memory.interrupt.elim .nothing .interrupt, memory) := by
  obtain ⟨gate, interrupt?⟩ := memory
  cases interrupt? with
  | none => rfl
  | some interrupt => rfl

end Memory

/-! ### Steps with tracing -/

/-- The event that a result calls for while tracing is on. -/
def Result.event? : Result → Option TraceEvent
  | .gate decoded => some (.gateDecoded decoded.target)
  | .refused (.bufferTooShort length) => some (.gateRejected (UInt64.ofNat length))
  | .interrupt recognized => some (.interruptRecognized recognized.interruptClass
      recognized.statusField recognized.statusWord0 recognized.statusWord1)
  | .configured _ | .nothing => none

/-- The configuration that a step sets. -/
def Step.configuration? : Step → Option Config
  | .configure config => some config
  | .decode _ | .redecode | .recognize _ | .rerecognize => none

/-- What the outcome of a step and the session after it are made of. -/
structure Effect (session : Session) (step : Step) (outcome : Outcome) (next : Session) : Prop where
  result : outcome.result = (session.memory.process step).1
  memory : next.memory = (session.memory.process step).2
  /-- Tracing is as it was before the step. -/
  events : outcome.events = if session.config.tracing then outcome.result.event?.toList else []
  log : next.log = session.log ++ outcome.events
  config : next.config = step.configuration?.getD session.config

/-- The event of decoding a buffer is that of the result, whether it is a gate or a refusal. -/
theorem effect_decodeBuffer (session : Session) (buffer : List Word) {step : Step}
    (decodes : session.memory.process step = session.memory.decode buffer)
    (configures : step.configuration? = none) :
    Effect session step (session.decodeBuffer buffer).1 (session.decodeBuffer buffer).2 := by
  have keeps : step.configuration?.getD session.config = session.config := by
    rw [configures, Option.getD_none]
  rw [Memory.decode] at decodes
  simp only [decodeBuffer, Gate.decodeTraced]
  cases decoded : Gate.decode buffer with
  | ok gate =>
    rw [decoded] at decodes
    exact ⟨by rw [decodes], by rw [decodes]; rfl, rfl, rfl, keeps.symm⟩
  | error error =>
    rw [decoded] at decodes
    exact ⟨by rw [decodes], by rw [decodes]; rfl, rfl, rfl, keeps.symm⟩

/-- A session that finds nothing to do stays as it is. -/
theorem effect_nothing (session : Session) {step : Step}
    (idle : session.memory.process step = (.nothing, session.memory))
    (configures : step.configuration? = none) :
    Effect session step ⟨.nothing, []⟩ session := by
  refine ⟨?_, ?_, (ite_self _).symm, (List.append_nil _).symm, ?_⟩
  · rw [idle]
  · rw [idle]
  · rw [configures, Option.getD_none]

/-- **A step is the untraced step, with the event of its result in the log while tracing is on.** -/
theorem effect_run (session : Session) (step : Step) :
    Effect session step (session.run step).1 (session.run step).2 := by
  obtain ⟨config, log, gate?, interrupt?⟩ := session
  cases step with
  | configure config => exact ⟨rfl, rfl, (ite_self _).symm, (List.append_nil _).symm, rfl⟩
  | decode buffer => exact effect_decodeBuffer _ buffer rfl rfl
  | redecode =>
    cases gate? with
    | none => exact effect_nothing _ rfl rfl
    | some gate => exact effect_decodeBuffer _ gate.toWords.toList rfl rfl
  | recognize interrupt => exact ⟨rfl, rfl, rfl, rfl, rfl⟩
  | rerecognize =>
    cases interrupt? with
    | none => exact effect_nothing _ rfl rfl
    | some interrupt => exact ⟨rfl, rfl, rfl, rfl, rfl⟩

/-! ### Steps that configure -/

/-- Whether a step only sets the configuration. -/
def Step.configures : Step → Bool
  | .configure _ => true
  | .decode _ | .redecode | .recognize _ | .rerecognize => false

/-- The steps of a session without those that configure it. -/
def unconfigured (steps : List Step) : List Step :=
  steps.filter fun step => !step.configures

/-- The results of the steps of a session that do not configure it, in order. -/
def results (steps : List Step) : List Result :=
  ((steps.zip (outcomes steps)).filter fun entry => !entry.1.configures).map
    fun entry => entry.2.1.result

/-! ### The session without tracing -/

theorem process_eq_run (session : Session) (step : Step) :
    session.memory.process step = ((session.run step).1.result, (session.run step).2.memory) := by
  have effect := effect_run session step
  rw [effect.result, effect.memory]

/-- Without tracing a step that configures does nothing. -/
theorem process_of_configures (memory : Memory) (step : Step)
    (configures : (!step.configures) = false) : (memory.process step).2 = memory := by
  cases step with
  | configure config => rfl
  | decode _ | redecode | recognize _ | rerecognize => cases configures

/-- What a session remembers is what it would remember without tracing, from the steps alone that do
not configure it. -/
theorem memory_finalState (steps : List Step) :
    (finalState run {} steps).memory = finalState Memory.process {} (unconfigured steps) := by
  rw [unconfigured, finalState_filter _ _ _ process_of_configures]
  exact (finalState_project run {} process_eq_run steps).symm

/-- **The results of a session are those of the machine without tracing** over the steps that do not
configure: leaving out idle steps keeps the entries of the others. -/
theorem results_eq_process (steps : List Step) :
    results steps = (transcript Memory.process {} (unconfigured steps)).map Prod.fst := by
  have projected : transcript Memory.process {} steps =
      (outcomes steps).map (Prod.map Outcome.result memory) :=
    transcript_project run {} process_eq_run steps
  rw [unconfigured, ← transcript_filter _ _ _ process_of_configures, projected, List.zip_map_right,
    List.filter_map, List.map_map, List.map_map]
  rfl

/-! ### Two sessions -/

/-- **Tracing is transparent over whole sessions.** Two sessions whose steps are the same but for
those that configure give the same results to these steps and remember the same gate and interrupt
at the end, wherever and however each is configured. Each result is that of decoding or recognizing
without tracing. -/
theorem tracing_transparent :
    (∀ first second : List Step, unconfigured first = unconfigured second →
      results first = results second ∧
      (finalState run {} first).lastGate = (finalState run {} second).lastGate ∧
      (finalState run {} first).lastInterrupt = (finalState run {} second).lastInterrupt) ∧
    (∀ steps : List Step,
      results steps = (transcript Memory.process {} (unconfigured steps)).map Prod.fst ∧
      (finalState run {} steps).memory = finalState Memory.process {} (unconfigured steps)) := by
  refine ⟨fun first second same => ?_, fun steps => ?_⟩
  · have remembered : (finalState run {} first).memory = (finalState run {} second).memory := by
      rw [memory_finalState, memory_finalState, same]
    refine ⟨?_, congrArg Memory.gate remembered, congrArg Memory.interrupt remembered⟩
    rw [results_eq_process, results_eq_process, same]
  · exact ⟨results_eq_process steps, memory_finalState steps⟩

/-- One session traces its first decoding and the other all that comes after it. -/
theorem tracing_transparent_of_late_tracing :
    let fault : Interrupt := .stackFault (.ofArguments 0 25 0o1000)
    let gate : List Word := [0o440777_600012, 0o512345_654321, 0o000376_400001, 1, 2]
    let first : List Step := [.configure { tracing := true }, .decode gate, .configure {},
      .decode [1, 2, 3], .redecode, .recognize fault, .rerecognize]
    let second : List Step := [.decode gate, .configure { tracing := true }, .decode [1, 2, 3],
      .redecode, .recognize fault, .rerecognize]
    unconfigured first = unconfigured second ∧
    (finalState run {} first).log.length = 1 ∧ (finalState run {} second).log.length = 4 ∧
    results first = results second ∧
    (finalState run {} first).lastGate = (finalState run {} second).lastGate := by
  intro fault gate first second
  have same : unconfigured first = unconfigured second := rfl
  obtain ⟨results, lastGate, _⟩ := tracing_transparent.1 first second same
  exact ⟨same, rfl, rfl, results, lastGate⟩

end Session

end ControlWords
