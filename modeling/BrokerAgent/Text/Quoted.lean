import BrokerAgent.Text.Printable

/-!
# Quoted texts

The form in which messages and the log show a text: between double quotes, on one line, and such
that every character can be told apart. `quote` is the whole form, `quoteAll` the form of a list.
-/

namespace BrokerAgent.Text

/-- A character by its number: in base sixteen, lower case, without leading zeros. -/
def numbered (c : Char) : List Char :=
  ['\\', 'u', '\x7b'] ++ Nat.toDigits 16 c.toNat ++ ['\x7d']

/-- One character inside a quoted text. Five controls and signs have a short form, characters that
do not print are spelled by number. -/
def quoteChar (c : Char) : List Char :=
  if c = '\x00' then ['\\', '0']
  else if c = '\t' then ['\\', 't']
  else if c = '\r' then ['\\', 'r']
  else if c = '\n' then ['\\', 'n']
  else if c = '"' then ['\\', '"']
  else if c = '\\' then ['\\', '\\']
  else if prints c then [c]
  else numbered c

/-- A text between double quotes. -/
def quoted (text : List Char) : List Char :=
  '"' :: text.flatMap quoteChar ++ ['"']

/-- A list of texts: brackets around the quoted texts, a comma and a blank between each two. -/
def quotedList (items : List (List Char)) : List Char :=
  '[' :: [',', ' '].intercalate (items.map quoted) ++ [']']

/-- `quoted` for strings. -/
def quote (s : String) : String :=
  String.ofList (quoted s.toList)

/-- `quotedList` for strings. -/
def quoteAll (items : List String) : String :=
  String.ofList (quotedList (items.map String.toList))

end BrokerAgent.Text
