import BrokerAgent.Refusal

/-!
# The rules for a record

A record may list only known protocols, and its lists and texts may be only so long. The checks
stop at the first rule that is broken. `chosenTransports` checks the protocols too, and gives what
they name.
-/

namespace BrokerAgent.Settings

/-- Every protocol has to be the name of a transport. -/
def checkProtocols (s : Settings) : Except Refusal Unit :=
  match s.protocols.find? fun p => ¬ Transport.names.contains p with
  | some bad => .error (.invalidProtocol bad)
  | none => .ok ()

/-- Addresses, id and secret have to keep their limits. Texts are measured in characters. -/
def checkLimits (s : Settings) : Except Refusal Unit :=
  if addressLimit < s.addresses.length then
    .error (.tooManyAddresses s.addresses.length addressLimit)
  else if idLimit < s.id.toList.length then .error (.fieldTooLong .id idLimit)
  else if secretLimit < s.secret.toList.length then
    .error (.fieldTooLong .secret secretLimit)
  else .ok ()

/-- All rules, the protocols first. -/
def check (s : Settings) : Except Refusal Unit := do
  s.checkProtocols
  s.checkLimits

/-- The transport of one protocol. -/
def transport (protocol : String) : Except Refusal Transport :=
  match Transport.ofName? protocol with
  | some t => .ok t
  | none => .error (.invalidProtocol protocol)

/-- The transports to try, in order. -/
def chosenTransports (s : Settings) : Except Refusal (List Transport) :=
  s.protocols.mapM transport

end BrokerAgent.Settings
