/-
**Sessions.**

A session holds a configuration and a log of events, and remembers the gate that was last decoded
and the interrupt that was last recognized, so that both can be processed again. Tracing is off at
first. A refused buffer leaves what is remembered; processing again what is not there does nothing.
-/

import ControlWords.Trace
import ControlWords.Transcript

namespace ControlWords

/-- The state of a session. -/
structure Session where
  config : Config := {}
  /-- The events reported so far, in order. -/
  log : List TraceEvent := []
  /-- The gate that was last decoded. -/
  lastGate : Option Gate := none
  /-- The interrupt that was last recognized. -/
  lastInterrupt : Option Interrupt := none
deriving DecidableEq, Repr

namespace Session

/-- What to do next in a session. -/
inductive Step where
  | configure (config : Config)
  | decode (buffer : List Word)
  /-- Decodes the words of the gate that was last decoded. -/
  | redecode
  | recognize (interrupt : Interrupt)
  /-- Recognizes the interrupt that was last recognized. -/
  | rerecognize
deriving DecidableEq, Repr

/-- What a step gives. -/
inductive Result where
  | configured (config : Config)
  | gate (gate : Gate)
  | refused (error : Gate.DecodeError)
  | interrupt (interrupt : Interrupt)
  /-- There was nothing to process again. -/
  | nothing
deriving DecidableEq, Repr

/-- What a step gives and the events that it reports. -/
structure Outcome where
  result : Result
  events : List TraceEvent
deriving DecidableEq, Repr

/-- Decodes a buffer and remembers its gate. -/
def decodeBuffer (session : Session) (buffer : List Word) : Outcome × Session :=
  match Gate.decodeTraced session.config buffer with
  | (.ok gate, events) =>
    (⟨.gate gate, events⟩,
      { session with log := session.log ++ events, lastGate := some gate })
  | (.error error, events) =>
    (⟨.refused error, events⟩, { session with log := session.log ++ events })

/-- Recognizes an interrupt and remembers it. -/
def recognizeInterrupt (session : Session) (interrupt : Interrupt) : Outcome × Session :=
  match Interrupt.recognize session.config interrupt with
  | (recognized, events) =>
    (⟨.interrupt recognized, events⟩,
      { session with log := session.log ++ events, lastInterrupt := some recognized })

/-- Takes one step. What is processed again is what the session remembers. -/
def run (session : Session) : Step → Outcome × Session
  | .configure config => (⟨.configured config, []⟩, { session with config })
  | .decode buffer => session.decodeBuffer buffer
  | .redecode =>
    match session.lastGate with
    | some gate => session.decodeBuffer gate.toWords.toList
    | none => (⟨.nothing, []⟩, session)
  | .recognize interrupt => session.recognizeInterrupt interrupt
  | .rerecognize =>
    match session.lastInterrupt with
    | some interrupt => session.recognizeInterrupt interrupt
    | none => (⟨.nothing, []⟩, session)

/-- Every outcome of a session from its beginning, each with the session after it. -/
def outcomes (steps : List Step) : List (Outcome × Session) :=
  transcript run {} steps

end Session

end ControlWords
