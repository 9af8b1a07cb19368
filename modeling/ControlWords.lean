import ControlWords.Transcript
import ControlWords.Word.Basic
import ControlWords.BitField.Basic
import ControlWords.BitField.Lemmas
import ControlWords.BitField.Program
import ControlWords.Json.Text
import ControlWords.Json.Basic
import ControlWords.Json.Lexer
import ControlWords.Json.Grammar
import ControlWords.Json.Codec
import ControlWords.Access
import ControlWords.Gate.Field
import ControlWords.Gate.Basic
import ControlWords.Gate.Program
import ControlWords.Interrupt.Class
import ControlWords.Interrupt.StatusField
import ControlWords.Interrupt.Record
import ControlWords.Interrupt.Basic
import ControlWords.Interrupt.Lemmas
import ControlWords.Trace
import ControlWords.Session
import ControlWords.Proofs.BitField.Reading
import ControlWords.Proofs.BitField.Laws
import ControlWords.Proofs.BitField.Checked
import ControlWords.Proofs.BitField.Runs
import ControlWords.Proofs.Word.Order
import ControlWords.Proofs.Access.Composites
import ControlWords.Proofs.Gate.Fields
import ControlWords.Proofs.Gate.RoundTrip
import ControlWords.Proofs.Gate.WriteOrder
import ControlWords.Proofs.Gate.Decoding
import ControlWords.Proofs.Json.Numerals
import ControlWords.Proofs.Json.Lexemes
import ControlWords.Proofs.Json.Layout
import ControlWords.Proofs.Json.Fields
import ControlWords.Proofs.Json.Cases
import ControlWords.Proofs.Json.RoundTrip
import ControlWords.Proofs.Gate.Equality
import ControlWords.Proofs.Gate.Normalizing
import ControlWords.Proofs.Json.Format
import ControlWords.Proofs.Json.Reading
import ControlWords.Proofs.Json.Integers
import ControlWords.Proofs.Gate.Numbers
import ControlWords.Proofs.Widths
import ControlWords.Proofs.Session.Steps
import ControlWords.Proofs.Session.Log
import ControlWords.Proofs.Session.Reprocessing
import ControlWords.Proofs.Interrupt.Reading
import ControlWords.Proofs.Interrupt.Identity
import ControlWords.Proofs.Interrupt.Packing
