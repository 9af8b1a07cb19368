/-
**An interrupt is what delivery and tracing see of it.**

Delivery and tracing see the class of an interrupt, its short status field and its two status words.
These four are enough to tell any two interrupts apart, and no more than the constructors keep of
their arguments:

* `Arguments` and `ofArguments`: the four constructors, with arguments of any size;
* `Arguments.Agree` and `ofArguments_eq_iff`: arguments that are the same once they are cut down
  build the same interrupt, and no others do;
* `eq_of_event_eq`: interrupts with the same event are the same;
* `identified_by_event`: equal interrupts, equal events, equal views, agreeing arguments and equal
  texts are one condition.
-/

import Mathlib.Tactic.TFAE
import ControlWords.Proofs.Json.Format

namespace ControlWords.Interrupt

/-! ### Constructors and their arguments -/

/-- What an interrupt is built from, at the widths at which it is given. -/
inductive Arguments where
  | referenceViolation (entryType : UInt8) (fetch : Bool)
  | addressingException (statusField level : UInt8) (index : UInt16)
  | stackFault (statusField register : UInt8) (address : UInt32)
  | invalidInstruction (statusField : UInt8)
deriving DecidableEq, Repr

/-- The interrupt of the record that is built from some arguments. -/
def ofArguments : Arguments → Interrupt
  | .referenceViolation entryType fetch => ReferenceViolation.ofArguments entryType fetch
  | .addressingException statusField level index =>
    AddressingException.ofArguments statusField level index
  | .stackFault statusField register address => StackFault.ofArguments statusField register address
  | .invalidInstruction statusField => InvalidInstruction.ofArguments statusField

/-- Arguments of one kind that are the same but for bits which their record has no room for. -/
def Arguments.Agree : Arguments → Arguments → Prop
  | .referenceViolation entryType fetch, .referenceViolation otherType otherFetch =>
    entryType.toNat % 4 = otherType.toNat % 4 ∧ fetch = otherFetch
  | .addressingException statusField level index,
      .addressingException otherField otherLevel otherIndex =>
    statusField = otherField ∧ level.toNat % 8 = otherLevel.toNat % 8 ∧
      index.toNat % 2 ^ 15 = otherIndex.toNat % 2 ^ 15
  | .stackFault statusField register address, .stackFault otherField otherRegister otherAddress =>
    statusField = otherField ∧ register.toNat % 64 = otherRegister.toNat % 64 ∧
      address.toNat % 2 ^ 24 = otherAddress.toNat % 2 ^ 24
  | .invalidInstruction statusField, .invalidInstruction otherField => statusField = otherField
  | _, _ => False

/-- **Two lists of arguments build one interrupt exactly when they agree.** -/
theorem ofArguments_eq_iff {first second : Arguments} :
    ofArguments first = ofArguments second ↔ first.Agree second := by
  cases first with
  | referenceViolation entryType fetch =>
    cases second with
    | referenceViolation otherType otherFetch =>
      simp only [ofArguments, ReferenceViolation.ofArguments, Interrupt.referenceViolation.injEq,
        ReferenceViolation.mk.injEq, setWidth_eq_setWidth_iff]
      rfl
    | addressingException _ _ _ | stackFault _ _ _ | invalidInstruction _ =>
      exact iff_of_false Interrupt.noConfusion id
  | addressingException statusField level index =>
    cases second with
    | addressingException otherField otherLevel otherIndex =>
      simp only [ofArguments, AddressingException.ofArguments, Interrupt.addressingException.injEq,
        AddressingException.mk.injEq, setWidth_eq_setWidth_iff]
      rfl
    | referenceViolation _ _ | stackFault _ _ _ | invalidInstruction _ =>
      exact iff_of_false Interrupt.noConfusion id
  | stackFault statusField register address =>
    cases second with
    | stackFault otherField otherRegister otherAddress =>
      simp only [ofArguments, StackFault.ofArguments, Interrupt.stackFault.injEq,
        StackFault.mk.injEq, setWidth_eq_setWidth_iff]
      rfl
    | referenceViolation _ _ | addressingException _ _ _ | invalidInstruction _ =>
      exact iff_of_false Interrupt.noConfusion id
  | invalidInstruction statusField =>
    cases second with
    | invalidInstruction otherField =>
      simp only [ofArguments, InvalidInstruction.ofArguments, Interrupt.invalidInstruction.injEq,
        InvalidInstruction.mk.injEq]
      rfl
    | referenceViolation _ _ | addressingException _ _ _ | stackFault _ _ _ =>
      exact iff_of_false Interrupt.noConfusion id

/-! ### What delivery and tracing see -/

/-- **Interrupts with one event are one interrupt**: each kind has a class of its own. -/
theorem eq_of_event_eq {first second : Interrupt} (same : first.event = second.event) :
    first = second := by
  obtain ⟨interruptClass, statusField, statusWord0, statusWord1⟩ :=
    TraceEvent.interruptRecognized.inj same
  cases first with
  | referenceViolation record =>
    cases second with
    | referenceViolation other => rw [ReferenceViolation.eq_of_statusField_eq statusField]
    | addressingException _ | stackFault _ | invalidInstruction _ => cases interruptClass
  | addressingException record =>
    cases second with
    | addressingException other =>
      rw [AddressingException.eq_of_statusWord1_eq statusField statusWord1]
    | referenceViolation _ | stackFault _ | invalidInstruction _ => cases interruptClass
  | stackFault record =>
    cases second with
    | stackFault other => rw [StackFault.eq_of_statusWord0_eq statusField statusWord0]
    | referenceViolation _ | addressingException _ | invalidInstruction _ => cases interruptClass
  | invalidInstruction record =>
    cases second with
    | invalidInstruction other =>
      exact congrArg (fun field => invalidInstruction { statusField := field }) statusField
    | referenceViolation _ | addressingException _ | stackFault _ => cases interruptClass

/-- **An interrupt is identified by exactly what delivery and tracing see.** For any arguments of
any two constructors it is the same that the interrupts are equal, that recognizing them reports the
same under tracing, that they agree in class, short status field and both status words, that the
arguments are of one kind and agree once they are cut down, and that the interrupts have the same
text. -/
theorem identified_by_event (first second : Arguments) : List.TFAE [
    ofArguments first = ofArguments second,
    (recognize { tracing := true } (ofArguments first)).2 =
      (recognize { tracing := true } (ofArguments second)).2,
    (ofArguments first).interruptClass = (ofArguments second).interruptClass ∧
      (ofArguments first).statusField = (ofArguments second).statusField ∧
      (ofArguments first).statusWord0 = (ofArguments second).statusWord0 ∧
      (ofArguments first).statusWord1 = (ofArguments second).statusWord1,
    first.Agree second,
    Json.write (ofArguments first) = Json.write (ofArguments second)] := by
  tfae_have 1 → 2 := congrArg fun interrupt => (recognize { tracing := true } interrupt).2
  tfae_have 2 → 3 := fun same => TraceEvent.interruptRecognized.inj (List.cons.inj same).1
  tfae_have 3 → 1 := fun ⟨interruptClass, statusField, statusWord0, statusWord1⟩ => by
    apply eq_of_event_eq
    rw [event, event, interruptClass, statusField, statusWord0, statusWord1]
  tfae_have 1 ↔ 4 := ofArguments_eq_iff
  tfae_have 1 → 5 := congrArg Json.write
  tfae_have 5 → 1 := LawfulCodec.write_injective
  tfae_finish

end ControlWords.Interrupt
