import BrokerAgent.Decimal.Shortest
import BrokerAgent.Text.Quoted

/-!
# Shapes of values

A field of the record wants a value of a certain shape. When a file has a well written value of
another shape there, the message names both: what was found and what was wanted.
-/

namespace BrokerAgent.Shape

/-- What a value turned out to be. -/
inductive Found
  | null
  | boolean (value : Bool)
  | integer (value : Int)
  | number (negative : Bool) (magnitude : Binary64)
  | infinity (negative : Bool)
  | notANumber
  | text (value : List Char)
  | sequence
  | map
deriving DecidableEq, Repr

/-- What a place in the record is made of. -/
inductive Wanted
  | settings
  | sequence
  | text
  | nothing
deriving DecidableEq, Repr

/-- A minus sign for negative values. -/
def sign (negative : Bool) : String :=
  if negative then "-" else ""

/-- A found value in a message. A number is spelled in the given style. -/
def Found.describe (style : Decimal.Style) : Found → String
  | null => "null"
  | boolean value => "boolean `" ++ (if value then "true" else "false") ++ "`"
  | integer value => "integer `" ++ toString value ++ "`"
  | number negative magnitude =>
    "floating point `" ++ sign negative ++
      String.ofList ((Decimal.shortest magnitude).text style) ++ "`"
  | infinity negative => "floating point `" ++ sign negative ++ "inf`"
  | notANumber => "floating point `NaN`"
  | text value => "string " ++ String.ofList (Text.quoted value)
  | sequence => "sequence"
  | map => "map"

/-- A wanted shape in a message. -/
def Wanted.describe : Wanted → String
  | settings => "struct AgentConfig"
  | sequence => "a sequence"
  | text => "a string"
  | nothing => "unit"

/-- The message about a value of the wrong shape. -/
def mismatch (style : Decimal.Style) (found : Found) (wanted : Wanted) : String :=
  "invalid type: " ++ found.describe style ++ ", expected " ++ wanted.describe

end BrokerAgent.Shape
