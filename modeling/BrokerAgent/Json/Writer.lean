import BrokerAgent.Settings.Basic
import BrokerAgent.Text.Quoted
import BrokerAgent.Transport

/-!
# Records as JSON

The record is written as an object with its fields in order, in one of two layouts:
`Layout.compact` without blanks, and `Layout.pretty` on lines indented by two blanks for each
level. A text is escaped only where JSON asks for it.
-/

namespace BrokerAgent.Json

/-- One character of a text: quotes and backslashes are escaped, and so are the controls below the
blank. -/
def escapeChar (c : Char) : List Char :=
  if c = '"' then ['\\', '"']
  else if c = '\\' then ['\\', '\\']
  else if c = '\x08' then ['\\', 'b']
  else if c = '\x0c' then ['\\', 'f']
  else if c = '\n' then ['\\', 'n']
  else if c = '\r' then ['\\', 'r']
  else if c = '\t' then ['\\', 't']
  else if c < ' ' then
    ['\\', 'u', '0', '0', Nat.digitChar (c.toNat / 16), Nat.digitChar (c.toNat % 16)]
  else [c]

/-- A text between quotes. -/
def writeText (text : List Char) : List Char :=
  '"' :: text.flatMap escapeChar ++ ['"']

/-- Where blanks stand: before each entry of a given depth and before the bracket that ends it,
and after each colon. -/
structure Layout where
  gap : Nat → List Char
  afterColon : List Char

namespace Layout

/-- No blanks at all. -/
def compact : Layout := ⟨fun _ => [], []⟩

/-- Each entry on a line of its own. -/
def pretty : Layout := ⟨fun depth => '\n' :: List.replicate (2 * depth) ' ', [' ']⟩

end Layout

/-- Entries between two brackets, at a depth. Nothing stands between the brackets of an empty
list. -/
def writeEntries (layout : Layout) (depth : Nat) (opening closing : Char) :
    List (List Char) → List Char
  | [] => [opening, closing]
  | entries =>
    opening ::
      [','].intercalate (entries.map fun entry => layout.gap (depth + 1) ++ entry) ++
      layout.gap depth ++ [closing]

/-- A list of texts that stands at a depth. -/
def writeList (layout : Layout) (depth : Nat) (items : List String) : List Char :=
  writeEntries layout depth '[' ']' (items.map fun item => writeText item.toList)

/-- A member: key, colon and value. -/
def writeMember (layout : Layout) (field : Field) (value : List Char) : List Char :=
  writeText field.name.toList ++ ':' :: layout.afterColon ++ value

/-- A whole record. -/
def writeSettings (layout : Layout) (s : Settings) : List Char :=
  writeEntries layout 0 '\x7b' '\x7d'
    [ writeMember layout .protocols (writeList layout 1 s.protocols),
      writeMember layout .addresses (writeList layout 1 s.addresses),
      writeMember layout .id (writeText s.id.toList),
      writeMember layout .secret (writeText s.secret.toList) ]

end BrokerAgent.Json

namespace BrokerAgent

/-- The record as a JSON text. -/
def Settings.toJson (layout : Json.Layout) (s : Settings) : String :=
  String.ofList (Json.writeSettings layout s)

/-- The transport as a JSON text. -/
def Transport.toJson (t : Transport) : String :=
  String.ofList (Json.writeText t.jsonName.toList)

end BrokerAgent
