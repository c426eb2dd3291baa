import BrokerAgent.Log

/-!
# Options

What a starting agent is asked for, by the command line, the environment and the defaults
together.
-/

namespace BrokerAgent

/-- What a starting agent is asked for. -/
structure Options where
  /-- The file to take the record from. -/
  config : Option String := none
  protocols : List String := ["udp", "tcp"]
  /-- Endpoints that take the place of those of the file, if there are any. -/
  addresses : List String := []
  level : Level := .info
  /-- Whether to print the record in the end. -/
  print : Bool := false
deriving DecidableEq, Repr

end BrokerAgent
