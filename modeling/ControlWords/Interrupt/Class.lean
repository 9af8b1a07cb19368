/-
**Interrupt classes.**

The machine assigns twenty-four of its class codes. The numbering is sparse, so looking up a code
may find no class. Classes compare by their codes.
-/

import ControlWords.Json.Codec

namespace ControlWords

/-- The classes of interrupts. -/
inductive InterruptClass where
  | hardwareDefault
  | hardwareCheck
  | diagnostic
  | referenceViolation
  | addressingException
  | terminalAddressingException
  | stackFault
  | signal
  | testAndSet
  | invalidInstruction
  | pageException
  | arithmeticException
  | dataException
  | operationTrap
  | breakpoint
  | quantumTimer
  | pageZeroed
  | softwareBreak
  | jumpHistoryFull
  | dayClock
  | performanceMonitoring
  | initialProgramLoad
  | processorInitial
  | processorNormal
deriving DecidableEq, Repr

namespace InterruptClass

/-- Every class, in ascending order of codes. -/
def all : List InterruptClass :=
  [hardwareDefault, hardwareCheck, diagnostic, referenceViolation, addressingException,
    terminalAddressingException, stackFault, signal, testAndSet, invalidInstruction, pageException,
    arithmeticException, dataException, operationTrap, breakpoint, quantumTimer, pageZeroed,
    softwareBreak, jumpHistoryFull, dayClock, performanceMonitoring, initialProgramLoad,
    processorInitial, processorNormal]

/-- The code that the machine assigns to a class. -/
def code : InterruptClass → UInt8
  | hardwareDefault => 0
  | hardwareCheck => 1
  | diagnostic => 2
  | referenceViolation => 8
  | addressingException => 9
  | terminalAddressingException => 10
  | stackFault => 11
  | signal => 12
  | testAndSet => 13
  | invalidInstruction => 14
  | pageException => 15
  | arithmeticException => 16
  | dataException => 17
  | operationTrap => 18
  | breakpoint => 19
  | quantumTimer => 20
  | pageZeroed => 23
  | softwareBreak => 24
  | jumpHistoryFull => 25
  | dayClock => 27
  | performanceMonitoring => 28
  | initialProgramLoad => 29
  | processorInitial => 30
  | processorNormal => 31

/-- The class of a code, if the code is assigned. -/
def ofCode? (code : UInt8) : Option InterruptClass :=
  all.find? fun assigned => assigned.code = code

instance : Ord InterruptClass where
  compare first second := compare first.code second.code

/-- The name of a class in messages. -/
def title : InterruptClass → String
  | hardwareDefault => "hardware default"
  | hardwareCheck => "hardware check"
  | diagnostic => "diagnostic"
  | referenceViolation => "reference violation"
  | addressingException => "addressing exception"
  | terminalAddressingException => "terminal addressing exception"
  | stackFault => "RCS/generic stack under/overflow"
  | signal => "signal"
  | testAndSet => "test and set"
  | invalidInstruction => "invalid instruction"
  | pageException => "page exception"
  | arithmeticException => "arithmetic exception"
  | dataException => "data exception"
  | operationTrap => "operation trap"
  | breakpoint => "breakpoint"
  | quantumTimer => "quantum timer"
  | pageZeroed => "page(s) zeroed"
  | softwareBreak => "software break"
  | jumpHistoryFull => "jump history full"
  | dayClock => "day clock"
  | performanceMonitoring => "performance monitoring"
  | initialProgramLoad => "initial program load"
  | processorInitial => "UPI initial"
  | processorNormal => "UPI normal"

/-- The code and the title of a class in one line. -/
def description (interruptClass : InterruptClass) : String :=
  s!"class {interruptClass.code} ({interruptClass.title})"

/-- The name under which a class is serialized. -/
def name : InterruptClass → String
  | hardwareDefault => "HardwareDefault"
  | hardwareCheck => "HardwareCheck"
  | diagnostic => "Diagnostic"
  | referenceViolation => "ReferenceViolation"
  | addressingException => "AddressingException"
  | terminalAddressingException => "TerminalAddressingException"
  | stackFault => "RcsGenericStackUnderOverflow"
  | signal => "Signal"
  | testAndSet => "TestAndSet"
  | invalidInstruction => "InvalidInstruction"
  | pageException => "PageException"
  | arithmeticException => "ArithmeticException"
  | dataException => "DataException"
  | operationTrap => "OperationTrap"
  | breakpoint => "Breakpoint"
  | quantumTimer => "QuantumTimer"
  | pageZeroed => "PageZeroed"
  | softwareBreak => "SoftwareBreak"
  | jumpHistoryFull => "JumpHistoryFull"
  | dayClock => "DayClock"
  | performanceMonitoring => "PerformanceMonitoring"
  | initialProgramLoad => "Ipl"
  | processorInitial => "UpiInitial"
  | processorNormal => "UpiNormal"

/-- The class of a name, if there is one. -/
def ofName? (name : String) : Option InterruptClass :=
  all.find? fun candidate => candidate.name = name

end InterruptClass

/-- A class is written as its name, and read also as a case of that name whose contents are null. -/
instance : JsonCodec InterruptClass where
  encode interruptClass := .string interruptClass.name
  decode?
    | .scalar value => do
      let name ← (Json.scalar value).string?
      InterruptClass.ofName? name
    | json => do
      let (name, body) ← json.variant?
      if body.isNull then InterruptClass.ofName? name else none

end ControlWords
