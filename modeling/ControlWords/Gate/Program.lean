/-
**Programs of steps on the words of a gate.**

A step writes or reads a field through the field map, overwrites a whole word, decodes the words, or
normalizes them: normal words are the words of their own gate, so normalizing clears the bits that
the map does not cover.
-/

import ControlWords.Gate.Basic
import ControlWords.Transcript

namespace ControlWords.Gate

/-- The words of the gate that five words hold. -/
def normalize (words : GateWords) : GateWords :=
  (ofWords words).toWords

/-- What to do with the words of a gate. -/
inductive Step where
  | setField (field : GateField) (value : UInt64)
  | getField (field : GateField)
  | setWord (slot : Fin 5) (word : Word)
  | decode
  /-- Clears the bits outside the field map. -/
  | normalize
deriving DecidableEq, Repr

/-- What a step gives. -/
inductive Reply where
  | done
  | number (value : UInt64)
  | gate (gate : Gate)
  /-- The words were normalized: whether they differ from before and whether the gate is the same.
  -/
  | normalized (changed sameGate : Bool)
deriving DecidableEq, Repr

/-- Runs one step on the words of a gate. -/
def Step.run (words : GateWords) : Step → Reply × GateWords
  | .setField field value => (.done, field.store words value)
  | .getField field => (.number (field.load words), words)
  | .setWord slot word => (.done, words.set slot word)
  | .decode => (.gate (ofWords words), words)
  | .normalize =>
    let after := Gate.normalize words
    (.normalized (after ≠ words) (ofWords after = ofWords words), after)

/-- Every reply of a program, each with the words after it. -/
def runProgram (words : GateWords) (steps : List Step) : List (Reply × GateWords) :=
  transcript Step.run words steps

end ControlWords.Gate
