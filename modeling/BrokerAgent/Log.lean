import BrokerAgent.Settings.Basic
import BrokerAgent.Text.Digit
import BrokerAgent.Text.Quoted

/-!
# The log

What the agent reports while it is set up, as data. An event has a level; the log shows the events
whose level is at most as verbose as the one asked for, each on a line of its own.
-/

namespace BrokerAgent

/-- How verbose a log is, and how important an event. -/
inductive Level
  | error
  | warn
  | info
  | debug
  | trace
deriving DecidableEq, Repr

namespace Level

/-- Every level, the most important first. -/
def all : List Level := [error, warn, info, debug, trace]

/-- The place of a level in that order, counted from 1. -/
def rank : Level → Nat
  | error => 1
  | warn => 2
  | info => 3
  | debug => 4
  | trace => 5

/-- The name of a level in the log. -/
def name : Level → String
  | error => "ERROR"
  | warn => "WARN"
  | info => "INFO"
  | debug => "DEBUG"
  | trace => "TRACE"

/-- The level of a rank. -/
def ofRank? (n : Nat) : Option Level :=
  all.find? fun level => level.rank = n

/-- The decimal number that a text is, with a plus sign or without. -/
def number? (s : List Char) : Option Nat :=
  let digits := match s with
    | '+' :: rest => rest
    | rest => rest
  if digits ≠ [] ∧ digits.all Char.isDigit then
    some (Text.numeral 10 digits)
  else none

/-- The level that a text names: by its rank or by its name in any mixture of cases. -/
def ofText? (s : String) : Option Level :=
  match number? s.toList with
  | some n => ofRank? n
  | none => all.find? fun level => level.name.toList = s.toList.map Char.toUpper

end Level

/-- What happens while the agent is set up. -/
inductive Event
  | fileLoaded (path : String)
  | recordCreated
  | fallbackUsed
  | ready (protocols addresses : List String)
  | failed (message : String)
deriving DecidableEq, Repr

namespace Event

/-- How important an event is. -/
def level : Event → Level
  | fileLoaded _ | recordCreated | fallbackUsed => .debug
  | ready .. => .info
  | failed _ => .error

/-- One character of a message in the log. Characters by which a message could steer a terminal
are spelled out. -/
def logChar (c : Char) : List Char :=
  if c = '\x1b' then "\\x1b".toList
  else if c = '\x07' then "\\x07".toList
  else if c = '\x08' then "\\x08".toList
  else if c = '\x0c' then "\\x0c".toList
  else if c = '\x7f' then "\\x7f".toList
  else if 0x80 ≤ c.toNat ∧ c.toNat < 0xA0 then Text.numbered c
  else [c]

/-- What an event says. -/
def text : Event → String
  | fileLoaded path => "loaded agent config file path=" ++ path
  | recordCreated => "initialising agent config with defaults"
  | fallbackUsed =>
    "no broker address configured, using default address=" ++ Text.quote Settings.fallbackAddress
  | ready protocols addresses =>
    "agent configuration ready protocols=" ++ Text.quoteAll protocols ++
      " addresses=" ++ Text.quoteAll addresses
  | failed message =>
    "agent configuration failed: " ++ String.ofList (message.toList.flatMap logChar)

/-- The line of an event: the level in five columns, the thread, and what the event says. -/
def line (e : Event) : String :=
  String.ofList (List.replicate (5 - e.level.name.length) ' ') ++ e.level.name ++
    " ThreadId(01) " ++ e.text ++ "\n"

end Event

/-- The events that a log of a level shows. -/
def Level.filter (level : Level) (events : List Event) : List Event :=
  events.filter fun e => e.level.rank ≤ level.rank

/-- The log of a level. -/
def Level.log (level : Level) (events : List Event) : String :=
  String.join ((level.filter events).map Event.line)

end BrokerAgent
