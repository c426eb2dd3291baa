import BrokerAgent.Settings.Basic
import BrokerAgent.Shape
import BrokerAgent.Text.Place
import BrokerAgent.Transport

/-!
# Faults of a JSON text

Why a JSON text was refused, and where. A reader stops at the first fault; `Fault.report` gives it
the line and column that the message ends with. Faults fall into three categories: the text ended
too early, the text is not JSON, or the text is JSON of the wrong content.
-/

namespace BrokerAgent.Json

/-- Why a text was refused. -/
inductive Cause
  | endInValue
  | endInObject
  | endInList
  | endInText
  | keyNotText
  | colonExpected
  | objectCommaExpected
  | listCommaExpected
  | trailingComma
  | valueExpected
  | wordExpected
  | invalidNumber
  | numberTooLarge
  | controlCharacter
  | invalidEscape
  | loneSurrogate
  | endOfEscape
  | trailingCharacters
  | wrongShape (found : Shape.Found) (wanted : Shape.Wanted)
  | repeatedField (field : Field)
  | unknownTransport (name : List Char)
deriving DecidableEq, Repr

/-- The three kinds of causes. -/
inductive Category
  | syntaxFault
  | dataFault
  | endFault
deriving DecidableEq, Repr

namespace Cause

/-- The category of a cause. -/
def category : Cause → Category
  | endInValue | endInObject | endInList | endInText => .endFault
  | wrongShape .. | repeatedField _ | unknownTransport _ => .dataFault
  | _ => .syntaxFault

/-- What a message says about a cause. -/
def text : Cause → String
  | endInValue => "EOF while parsing a value"
  | endInObject => "EOF while parsing an object"
  | endInList => "EOF while parsing a list"
  | endInText => "EOF while parsing a string"
  | keyNotText => "key must be a string"
  | colonExpected => "expected `:`"
  | objectCommaExpected => "expected `,` or `\x7d`"
  | listCommaExpected => "expected `,` or `]`"
  | trailingComma => "trailing comma"
  | valueExpected => "expected value"
  | wordExpected => "expected ident"
  | invalidNumber => "invalid number"
  | numberTooLarge => "number out of range"
  | controlCharacter => "control character (\\u0000-\\u001F) found while parsing a string"
  | invalidEscape => "invalid escape"
  | loneSurrogate => "lone leading surrogate in hex escape"
  | endOfEscape => "unexpected end of hex escape"
  | trailingCharacters => "trailing characters"
  | wrongShape found wanted => Shape.mismatch .scientific found wanted
  | repeatedField field => "duplicate field `" ++ field.name ++ "`"
  | unknownTransport name =>
    "unknown variant `" ++ String.ofList name ++ "`, expected " ++
      " or ".intercalate (Transport.jsonNames.map fun n => "`" ++ n ++ "`")

end Cause

/-- A cause at a point of the text. -/
structure Fault where
  cause : Cause
  mark : Mark
deriving DecidableEq, Repr

/-- What a reader gives: a value and the text after it, or a fault. -/
abbrev Reading (α : Type) := Except Fault (α × List Char)

/-- Changes the value of a reading and keeps the text after it. -/
def Reading.mapValue {α β : Type} (f : α → β) (reading : Reading α) : Reading β :=
  match reading with
  | .error fault => .error fault
  | .ok (a, rest) => .ok (f a, rest)

/-- A reading whose value is changed succeeds exactly if the reading does, with the same rest. -/
theorem Reading.mapValue_eq_ok {α β : Type} {f : α → β} {reading : Reading α} {b : β}
    {rest : List Char} :
    reading.mapValue f = .ok (b, rest) ↔ ∃ a, reading = .ok (a, rest) ∧ f a = b := by
  unfold mapValue
  cases reading with
  | error fault => simp
  | ok pair => grind

/-- A fault reported at the point that was read up to. -/
def faultHere {α : Type} (cause : Cause) (rest : List Char) : Except Fault α :=
  .error ⟨cause, .here rest⟩

/-- A fault reported past the byte that was looked at, read or not. -/
def faultAt {α : Type} (cause : Cause) (rest : List Char) : Except Fault α :=
  .error ⟨cause, .peek rest⟩

/-- A cause at a line and a column. -/
structure Report where
  cause : Cause
  place : Place
deriving DecidableEq, Repr

/-- Finds the line and column of a fault in the text it was found in. -/
def Fault.report (text : List Char) (fault : Fault) : Report :=
  ⟨fault.cause, fault.mark.place text⟩

/-- The message of a refused text. -/
def Report.text (r : Report) : String :=
  r.cause.text ++ " at line " ++ toString r.place.line ++ " column " ++ toString r.place.column

end BrokerAgent.Json
