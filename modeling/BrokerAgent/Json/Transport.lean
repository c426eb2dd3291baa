import BrokerAgent.Json.Settings

/-!
# Transports from JSON

A transport is written as its name, or as an object with its name as the only key and `null` as
its value.
-/

namespace BrokerAgent.Json

/-- The transport of a name that has just been read. -/
def transportNamed (name rest : List Char) : Except Fault Transport :=
  match Transport.ofJsonName? name with
  | some transport => .ok transport
  | none => faultHere (.unknownTransport name) rest

/-- Reads the value `null`. -/
def readNull (s : List Char) : Except Fault (List Char) :=
  match skipSpace s with
  | [] => faultAt .endInValue []
  | c :: rest =>
    if c = 'n' then readWord ['u', 'l', 'l'] rest else refuse .nothing c rest

/-- Reads what follows the bracket that opens the object form. A key that is no text, or the end of
the text in its place, is a fault as in any object; an object without a key lacks a value. -/
def readTransportMember (s : List Char) : Except Fault (Transport × List Char) :=
  match skipSpace s with
  | [] => faultAt .endInObject []
  | c :: rest =>
    if c = '"' then do
      let (name, rest) ← readText rest
      let transport ← transportNamed name rest
      let rest ← readNull (← readColon rest)
      match skipSpace rest with
      | [] => faultAt .endInObject []
      | d :: rest =>
        if d = '\x7d' then return (transport, rest) else faultHere .valueExpected (d :: rest)
    else if c = '\x7d' then faultAt .valueExpected (c :: rest)
    else faultAt .keyNotText (c :: rest)

/-- Reads a transport in either form. -/
def readTransport (s : List Char) : Except Fault (Transport × List Char) :=
  match skipSpace s with
  | [] => faultAt .endInValue []
  | c :: rest =>
    if c = '"' then do
      let (name, rest) ← readText rest
      return (← transportNamed name rest, rest)
    else if c = '\x7b' then readTransportMember rest
    else faultAt .valueExpected (c :: rest)

/-- The transport that a whole text gives. -/
def transport (text : List Char) : Except Fault Transport := do
  let (transport, rest) ← readTransport text
  readEnd rest
  return transport

end BrokerAgent.Json

namespace BrokerAgent

/-- Reads a transport from a JSON text. -/
def Transport.ofJson (text : List Char) : Except Json.Report Transport :=
  (Json.transport text).mapError (Json.Fault.report text)

end BrokerAgent
