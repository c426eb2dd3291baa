/-!
# Settings

The record that an agent is configured by, the limits it has to keep, and the copy of it that may
be shown.
-/

namespace BrokerAgent

/-- What the agent needs to know to reach its broker. -/
structure Settings where
  /-- Transports to try, in order. -/
  protocols : List String := []
  /-- Broker endpoints, highest priority first. -/
  addresses : List String := []
  id : String := ""
  secret : String := ""
deriving DecidableEq, Repr, Inhabited

/-- The fields of the record, in its order. -/
inductive Field
  | protocols
  | addresses
  | id
  | secret
deriving DecidableEq, Repr

namespace Field

/-- Every field, in the record's order. -/
def all : List Field := [protocols, addresses, id, secret]

/-- The key of a field in every format. -/
def name : Field → String
  | protocols => "protocols"
  | addresses => "addresses"
  | id => "id"
  | secret => "secret"

/-- The field of a key. -/
def ofName? (key : String) : Option Field :=
  all.find? fun f => f.name = key

theorem ofName?_name (f : Field) : ofName? f.name = some f := by
  cases f <;> decide

end Field

namespace Settings

/-- The broker that an agent turns to when none is configured. -/
def fallbackAddress : String := "broker.example.com:9443"

/-- How many addresses a record may list. -/
def addressLimit : Nat := 100

/-- How many characters an id may have. -/
def idLimit : Nat := 100

/-- How many characters a secret may have. -/
def secretLimit : Nat := 1000

/-- What stands for a secret wherever a record is shown. -/
def hiddenSecret : String := "<redacted>"

/-- The copy that is safe to show: a secret, if there is one, is blanked out. -/
def masked (s : Settings) : Settings :=
  if s.secret = "" then s else { s with secret := hiddenSecret }

/-- Falls back to the default broker where no address is configured. -/
def withFallback (s : Settings) : Settings :=
  if s.addresses = [] then { s with addresses := [fallbackAddress] } else s

@[simp] theorem withFallback_protocols (s : Settings) :
    s.withFallback.protocols = s.protocols := by
  unfold withFallback
  split <;> rfl

@[simp] theorem withFallback_id (s : Settings) : s.withFallback.id = s.id := by
  unfold withFallback
  split <;> rfl

@[simp] theorem withFallback_secret (s : Settings) : s.withFallback.secret = s.secret := by
  unfold withFallback
  split <;> rfl

/-- The fallback stands in for addresses that are missing. -/
theorem withFallback_addresses (s : Settings) :
    s.withFallback.addresses = if s.addresses = [] then [fallbackAddress] else s.addresses := by
  unfold withFallback
  split <;> rfl

end Settings
end BrokerAgent
