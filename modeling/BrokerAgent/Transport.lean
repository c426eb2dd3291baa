/-!
# Transports

The transports by which an agent reaches its broker, and their names.
-/

namespace BrokerAgent

/-- A transport. -/
inductive Transport
  | udp
  | tcp
deriving DecidableEq, Repr

namespace Transport

/-- Every transport, in the order in which messages name them. -/
def all : List Transport := [udp, tcp]

/-- The name under which a transport is configured and printed. -/
def name : Transport → String
  | udp => "udp"
  | tcp => "tcp"

/-- The name as a symbol of its own, with a capital. -/
def symbol : Transport → String
  | udp => "Udp"
  | tcp => "Tcp"

/-- The names that a record may list. -/
def names : List String := ["udp", "tcp"]

/-- The transport of a name, in exactly this spelling. -/
def ofName? (s : String) : Option Transport :=
  if s = "udp" then some udp
  else if s = "tcp" then some tcp
  else none

theorem ofName?_name (t : Transport) : ofName? t.name = some t := by
  cases t <;> decide

/-- A text names a transport only by being its name. -/
theorem ofName?_eq_some_iff {s : String} {t : Transport} : ofName? s = some t ↔ s = t.name := by
  constructor
  · unfold ofName?
    split
    · rintro ⟨⟩; assumption
    · split
      · rintro ⟨⟩; assumption
      · rintro ⟨⟩
  · rintro rfl; exact ofName?_name t

/-! ## Names in JSON -/

/-- The name that JSON is given for a transport. -/
def jsonName : Transport → String
  | udp => "udp"
  | tcp => "tcp"

/-- The names that JSON may give, in the order in which a refusal lists them. -/
def jsonNames : List String := all.map jsonName

/-- The transport of a name that was read from JSON. -/
def ofJsonName? (name : List Char) : Option Transport :=
  if name = ['u', 'd', 'p'] then some udp
  else if name = ['t', 'c', 'p'] then some tcp
  else none

/-- JSON names a transport as the records do. -/
theorem jsonName_eq_name (t : Transport) : t.jsonName = t.name := by
  cases t <;> rfl

/-- JSON reads a transport off its name only. -/
theorem ofJsonName?_eq_some_iff {name : List Char} {t : Transport} :
    ofJsonName? name = some t ↔ name = t.name.toList := by
  have hudp : udp.name.toList = ['u', 'd', 'p'] := by decide
  have htcp : tcp.name.toList = ['t', 'c', 'p'] := by decide
  cases t <;> grind [ofJsonName?]

end Transport
end BrokerAgent
