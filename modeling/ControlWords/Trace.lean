/-
**Tracing.**

While tracing is on, decoding a gate and recognizing an interrupt each report one event; otherwise
they report none. What is decoded or recognized is the same either way.

* `Config.report` gives the events of a step under a configuration;
* `Gate.decodeTraced` and `Interrupt.recognize` give a result with its events.
-/

import ControlWords.Gate.Basic
import ControlWords.Interrupt.Basic

namespace ControlWords

/-- How steps are traced. -/
structure Config where
  /-- Whether events are reported. -/
  tracing : Bool := false
deriving DecidableEq, Repr

/-- What is reported of a step while tracing is on. -/
inductive TraceEvent where
  /-- A gate was decoded. -/
  | gateDecoded (target : TargetAddress)
  /-- A buffer was refused for its length. -/
  | gateRejected (length : UInt64)
  /-- An interrupt was recognized. -/
  | interruptRecognized (interruptClass : InterruptClass) (statusField : UInt8)
      (statusWord0 statusWord1 : Word)
deriving DecidableEq, Repr

/-- The events of a step: the given one while tracing is on, and none otherwise. -/
def Config.report (config : Config) (event : TraceEvent) : List TraceEvent :=
  if config.tracing then [event] else []

/-- The event of decoding a gate or of refusing a buffer. -/
def Gate.decodeEvent : Except Gate.DecodeError Gate → TraceEvent
  | .ok gate => .gateDecoded gate.target
  | .error (.bufferTooShort length) => .gateRejected (UInt64.ofNat length)

/-- Decodes a gate, with the events that this reports. -/
def Gate.decodeTraced (config : Config) (buffer : List Word) :
    Except Gate.DecodeError Gate × List TraceEvent :=
  let result := Gate.decode buffer
  (result, config.report (Gate.decodeEvent result))

/-- The event of recognizing an interrupt: its class and what is delivered of it. -/
def Interrupt.event (interrupt : Interrupt) : TraceEvent :=
  .interruptRecognized interrupt.interruptClass interrupt.statusField interrupt.statusWord0
    interrupt.statusWord1

/-- Recognizes an interrupt, with the events that this reports. -/
def Interrupt.recognize (config : Config) (interrupt : Interrupt) :
    Interrupt × List TraceEvent :=
  (interrupt, config.report interrupt.event)

/-! ### Serialized forms -/

instance : JsonCodec Config where
  encode config := .record [("tracing_enabled", .bool config.tracing)]
  decode? json := do
    let [tracing] ← json.fields? ["tracing_enabled"] | none
    return { tracing := ← tracing.bool? }

namespace TraceEvent

/-- The name of the case of an event. -/
def name : TraceEvent → String
  | gateDecoded _ => "GateDecoded"
  | gateRejected _ => "GateRejected"
  | interruptRecognized .. => "InterruptRecognized"

/-- The contents of an event, by name. -/
def encodeBody : TraceEvent → Json
  | gateDecoded target => .record [("target", JsonCodec.encode target)]
  | gateRejected length => .record [("buffer_len", JsonCodec.encode length)]
  | interruptRecognized interruptClass statusField statusWord0 statusWord1 => .record
    [("class", JsonCodec.encode interruptClass),
      ("short_status_field", JsonCodec.encode statusField),
      ("status_word0", JsonCodec.encode statusWord0),
      ("status_word1", JsonCodec.encode statusWord1)]

/-- The event of a decoded gate, from its contents. -/
def decodeGateDecoded? (body : Json) : Option TraceEvent := do
  let [target] ← body.fields? ["target"] | none
  return gateDecoded (← JsonCodec.decode? target)

/-- The event of a refused buffer, from its contents. -/
def decodeGateRejected? (body : Json) : Option TraceEvent := do
  let [length] ← body.fields? ["buffer_len"] | none
  return gateRejected (← JsonCodec.decode? length)

/-- The event of a recognized interrupt, from its contents. -/
def decodeInterruptRecognized? (body : Json) : Option TraceEvent := do
  let [interruptClass, statusField, statusWord0, statusWord1] ← body.fields?
    ["class", "short_status_field", "status_word0", "status_word1"] | none
  return interruptRecognized (← JsonCodec.decode? interruptClass)
    (← JsonCodec.decode? statusField) (← JsonCodec.decode? statusWord0)
    (← JsonCodec.decode? statusWord1)

/-- The event of a name, from its contents. -/
def decodeBody? (body : Json) (name : String) : Option TraceEvent :=
  if name = "GateDecoded" then
    decodeGateDecoded? body
  else if name = "GateRejected" then
    decodeGateRejected? body
  else if name = "InterruptRecognized" then
    decodeInterruptRecognized? body
  else
    none

end TraceEvent

instance : JsonCodec TraceEvent where
  encode event := .variant event.name event.encodeBody
  decode? json := do
    let (name, body) ← json.variant?
    TraceEvent.decodeBody? body name

end ControlWords
