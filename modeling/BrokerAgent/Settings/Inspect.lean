import BrokerAgent.Settings.Basic
import BrokerAgent.Text.Quoted

/-!
# The record as it is shown

Two texts that show a record for a reader of the log, on one line and on several. Neither has
anything of the secret, not even whether there is one.
-/

namespace BrokerAgent.Settings

open Text

/-- A list of texts on lines of their own, a comma after each. -/
def listLines (items : List String) : List Char :=
  if items.isEmpty then ['[', ']']
  else
    "[\n".toList ++
      items.flatMap (fun item => "        ".toList ++ quoted item.toList ++ ",\n".toList) ++
      "    ]".toList

/-- The record on one line. -/
def inspect (s : Settings) : String :=
  String.ofList <|
    "AgentConfig \x7b protocols: ".toList ++ quotedList (s.protocols.map String.toList) ++
    ", addresses: ".toList ++ quotedList (s.addresses.map String.toList) ++
    ", id: ".toList ++ quoted s.id.toList ++
    ", secret: ".toList ++ quoted hiddenSecret.toList ++ " \x7d".toList

/-- The record with a field on each line and a text on each line of a list. -/
def inspectLines (s : Settings) : String :=
  String.ofList <|
    "AgentConfig \x7b\n    protocols: ".toList ++ listLines s.protocols ++
    ",\n    addresses: ".toList ++ listLines s.addresses ++
    ",\n    id: ".toList ++ quoted s.id.toList ++
    ",\n    secret: ".toList ++ quoted hiddenSecret.toList ++ ",\n\x7d".toList

end BrokerAgent.Settings
