import BrokerAgent.Options.CommandLine
import BrokerAgent.Settings.Inspect
import BrokerAgent.Startup

/-!
# Sessions

Everything that can be done with the shared record, one request after the other. A session holds
the shared record, the files, and one record that has been put aside. `Session.answer` carries out
a request.
-/

namespace BrokerAgent

/-- A new value for one field. -/
inductive Edit
  | protocols (value : List String)
  | addresses (value : List String)
  | id (value : String)
  | secret (value : String)
deriving DecidableEq, Repr

/-- The record with the new value. -/
def Edit.apply (e : Edit) (record : Settings) : Settings :=
  match e with
  | protocols value => { record with protocols := value }
  | addresses value => { record with addresses := value }
  | id value => { record with id := value }
  | secret value => { record with secret := value }

/-- The fields that hold lists. -/
inductive ListField
  | protocols
  | addresses
deriving DecidableEq, Repr

namespace ListField

/-- The list of a field. -/
def get (record : Settings) : ListField → List String
  | protocols => record.protocols
  | addresses => record.addresses

/-- The record with another list in a field. -/
def set (value : List String) (record : Settings) : ListField → Settings
  | protocols => { record with protocols := value }
  | addresses => { record with addresses := value }

end ListField

/-- What may be asked of a session. -/
inductive Request
  | look
  | hold
  | put (record : Settings)
  | edit (e : Edit)
  | push (field : ListField) (value : String)
  | pop (field : ListField)
  | fallback
  | check
  | checkProtocols
  | checkLimits
  | transports
  | masked
  | inspect
  | keep
  | kept
  | restore
  | equalsKept
  | breakOff (e : Option Edit)
  | isMarked
  | isSame
  | write (path : String) (content : FileContent)
  | load (path : Option String)
  | loadAndPut (path : Option String)
  | start (arguments : List String) (env : Environment)
deriving DecidableEq, Repr

/-- What a session answers. -/
inductive Answer
  | done
  | record (record : Settings)
  | removed (value : Option String)
  | transports (list : List Transport)
  | text (value : String)
  | flag (value : Bool)
  | refused (cause : Refusal)
  | failed (failure : Startup.Failure)
  | misused (usage : Usage)
deriving DecidableEq, Repr

/-- The shared record, the files, and the record that was put aside. -/
structure Session where
  shared : SharedRecord := {}
  files : FileTree := {}
  kept : Settings := {}

namespace Session

/-- The answer to a check. -/
def verdict : Except Refusal Unit → Answer
  | .ok () => .done
  | .error cause => .refused cause

/-- The session after the shared record has been looked at. -/
def looked (s : Session) : Session :=
  { s with shared := s.shared.create }

/-- The session after the shared record has been changed. -/
def changed (s : Session) (change : Settings → Settings) : Session :=
  { s with shared := s.shared.update change }

/-- Carries out a request. -/
def answer (s : Session) : Request → Answer × Session
  | .look => (.record s.shared.look, s.looked)
  | .hold => (.record s.shared.hold.record, s.looked)
  | .put record => (.done, { s with shared := s.shared.put record })
  | .edit e => (.done, s.changed e.apply)
  | .push field value =>
    (.done, s.changed fun record => field.set (field.get record ++ [value]) record)
  | .pop field =>
    (.removed (field.get s.shared.look).getLast?,
      s.changed fun record => field.set (field.get record).dropLast record)
  | .fallback => (.done, s.changed Settings.withFallback)
  | .check => (verdict s.shared.look.check, s.looked)
  | .checkProtocols => (verdict s.shared.look.checkProtocols, s.looked)
  | .checkLimits => (verdict s.shared.look.checkLimits, s.looked)
  | .transports =>
    match s.shared.look.chosenTransports with
    | .ok list => (.transports list, s.looked)
    | .error cause => (.refused cause, s.looked)
  | .masked => (.record s.shared.look.masked, s.looked)
  | .inspect => (.text s.shared.look.inspect, s.looked)
  | .keep => (.done, { s.looked with kept := s.shared.look })
  | .kept => (.record s.kept, s)
  | .restore => (.done, { s with shared := s.shared.put s.kept })
  | .equalsKept => (.flag (s.kept = s.shared.look), s.looked)
  | .breakOff e =>
    let change := match e with
      | none => id
      | some e => e.apply
    (.flag true, { s with shared := s.shared.breakOff change })
  | .isMarked => (.flag s.shared.marked, s.looked)
  | .isSame => (.flag true, s.looked)
  | .write path content => (.done, { s with files := s.files.insert path content })
  | .load path =>
    match Settings.loadIfNamed s.files.read path with
    | .ok record => (.record record, s)
    | .error cause => (.refused cause, s)
  | .loadAndPut path =>
    match Settings.loadIfNamed s.files.read path with
    | .ok record => (.done, { s with shared := s.shared.put record })
    | .error cause => (.refused cause, s)
  | .start arguments env =>
    match Options.ofArguments arguments env with
    | .error usage => (.misused usage, s)
    | .ok o =>
      let step := Startup.start s.files.read o s.shared
      match step.result with
      | .ok record => (.record record, { s with shared := step.shared })
      | .error failure => (.failed failure, { s with shared := step.shared })

/-- Carries out requests one after the other; each answer comes with the shared record after it. -/
def answers (s : Session) : List Request → List (Answer × Settings)
  | [] => []
  | request :: requests =>
    let (a, next) := s.answer request
    (a, next.shared.record) :: next.answers requests

end Session
end BrokerAgent
