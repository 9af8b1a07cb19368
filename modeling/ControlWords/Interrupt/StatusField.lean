/-
**Codes of the short status field.**

The short status field tells apart the causes within one interrupt class. The codes are listed by
class; several conditions of an invalid instruction share the code zero.
-/

namespace ControlWords

/-! ### Reference violations: the entry type -/

namespace ReferenceViolation

/-- A register of the general set was referenced with insufficient privilege. -/
def registerSet : UInt8 := 0

/-- The reference lies outside the storage limits. -/
def storageLimits : UInt8 := 1

/-- Reading is not permitted. -/
def readAccess : UInt8 := 2

/-- Writing is not permitted. -/
def writeAccess : UInt8 := 3

end ReferenceViolation

/-! ### Addressing exceptions -/

namespace AddressingException

/-- The addressing exception is fatal. -/
def fatal : UInt8 := 0o00

/-- The G bit of the gate bank's descriptor is set. -/
def gateBit : UInt8 := 0o01

/-- Entering is denied by the gate or its bank, or queuing is denied. -/
def enterDenied : UInt8 := 0o02

/-- The source level and index are invalid or beyond the descriptor table. -/
def invalidSource : UInt8 := 0o03

/-- The gate crosses its bank's boundary or lies outside its limits. -/
def gateBoundary : UInt8 := 0o04

/-- The IS value is invalid. -/
def invalidSelector : UInt8 := 0o05

/-- The gate inhibits a transfer by goto. -/
def gotoInhibit : UInt8 := 0o06

/-- A queuing instruction broke a general rule. -/
def queuingViolation : UInt8 := 0o07

/-- The queue holds its maximum count. -/
def maximumCount : UInt8 := 0o10

/-- The G bit of an indirect bank's descriptor is set. -/
def indirectBit : UInt8 := 0o11

/-- The list of inactive queue banks is empty. -/
def inactiveListEmpty : UInt8 := 0o13

/-- The queue structure is marked as being updated. -/
def updateInProgress : UInt8 := 0o14

/-- The repository of queue banks is full. -/
def repositoryFull : UInt8 := 0o15

/-- The type of the bank descriptor is invalid. -/
def invalidType : UInt8 := 0o16

/-- Access is denied by a postern or a data expanse. -/
def expanseDenied : UInt8 := 0o17

end AddressingException

/-! ### Stack faults -/

namespace StackFault

/-- The stack overflows. -/
def overflow : UInt8 := 0

/-- The stack underflows. -/
def underflow : UInt8 := 1

/-- The base register that is reported when the return control stack itself faults. -/
def returnStackRegister : UInt8 := 25

end StackFault

/-! ### Invalid instructions -/

namespace InvalidInstruction

/-- The function code is undefined, by itself or as the target of an executed instruction. -/
def functionCode : UInt8 := 0

/-- A jump with linkage uses index register zero. -/
def linkageRegister : UInt8 := 0

/-- The LBU instruction uses base register zero or one. -/
def bankLoadRegister : UInt8 := 0

/-- The LBUD instruction uses base register zero. -/
def descriptorLoadRegister : UInt8 := 0

/-- The processor privilege is insufficient. -/
def privilege : UInt8 := 1

/-- The target of an executed instruction is invalid. -/
def executeTarget : UInt8 := 3

end InvalidInstruction

end ControlWords
