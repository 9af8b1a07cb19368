/-
**Programs of field steps on an array of words.**

A step names a run of bits and what to do with it. A run that is refused leaves the array as it is
and the program goes on; reading steps leave it too. Words outside the array read as zero, and
writing to one changes nothing.
-/

import ControlWords.BitField.Basic
import ControlWords.Transcript

namespace ControlWords.BitField

/-- What a step does with its field. -/
inductive Action where
  | insert (value : UInt64)
  | extract
  | extractInPlace
  | flag
deriving DecidableEq, Repr

/-- A run of bits, not yet checked, and what to do with it. -/
structure Step where
  word : Nat
  first : UInt32
  width : UInt32
  action : Action
deriving DecidableEq, Repr

/-- What a step gives: why its run of bits was refused, or what was written or read. -/
inductive Reply where
  | refused (error : RangeError)
  | stored (word : Word)
  | number (value : UInt64)
  | flag (set : Bool)
deriving DecidableEq, Repr

/-- Does one thing with a field of an array of words. -/
def perform (field : BitField) (words : Array Word) : Action → Reply × Array Word
  | .insert value =>
    let stored := field.insert (words.getD field.word 0) value
    (.stored stored, words.setIfInBounds field.word stored)
  | .extract => (.number (field.extract (words.getD field.word 0)), words)
  | .extractInPlace => (.number (field.extractInPlace (words.getD field.word 0)), words)
  | .flag => (.flag (field.flag (words.getD field.word 0)), words)

/-- Runs one step, which leaves the array as it is when its run of bits is refused. -/
def Step.run (words : Array Word) (step : Step) : Reply × Array Word :=
  match ofRange step.word step.first step.width with
  | .error error => (.refused error, words)
  | .ok field => field.perform words step.action

/-- Every reply of a program, each with the array after it. -/
def runProgram (words : Array Word) (steps : List Step) : List (Reply × Array Word) :=
  transcript Step.run words steps

end ControlWords.BitField
