import BrokerAgent.Options.Basic
import BrokerAgent.Settings.Load
import BrokerAgent.Settings.Rules
import BrokerAgent.SharedRecord

/-!
# Starting up

An agent that starts loads a file if it is asked to, puts that record in place of the shared one,
and then, in one piece, sets what the options say, falls back to the default address, and checks
the rules. A file that does not load leaves the shared record as it was; a record that breaks the
rules stays in place. The three steps are `load`, `seed` and `settle`; `start` is the whole.
-/

namespace BrokerAgent.Startup

/-- Why a start failed. -/
inductive Failure
  | loading (path : String) (cause : Refusal)
  | rejected (cause : Refusal)
deriving DecidableEq, Repr

namespace Failure

/-- What was refused. -/
def cause : Failure → Refusal
  | loading _ cause | rejected cause => cause

/-- What was being done. -/
def headline : Failure → String
  | loading path _ => "loading " ++ Text.quote path
  | rejected _ => "agent config rejected"

/-- The messages of a failure, from the outside in. -/
def chain (f : Failure) : List String :=
  f.headline :: f.cause.message :: f.cause.inner?.toList

/-- The messages on one line. -/
def message (f : Failure) : String :=
  ": ".intercalate f.chain

end Failure

/-- What a step gives, what it reports, and the shared record after it. -/
structure Step (α : Type) where
  result : α
  events : List Event
  shared : SharedRecord

/-- The first step, which does not touch the shared record: the record of the file, if one is
named. -/
def load (files : Files) (o : Options) : Except Failure (Option Settings) :=
  match o.config with
  | none => .ok none
  | some path =>
    match Settings.load files path with
    | .error cause => .error (.loading path cause)
    | .ok record => .ok (some record)

/-- The event of the first look at the shared record. -/
def creation (shared : SharedRecord) : List Event :=
  if shared.created then [] else [.recordCreated]

/-- The second step: a loaded record takes the place of the shared one. -/
def seed (loaded : Option Settings) (shared : SharedRecord) : Step Unit :=
  match loaded with
  | none => ⟨(), [], shared⟩
  | some record => ⟨(), creation shared, shared.put record⟩

/-- Sets what the options say. -/
def override (o : Options) (record : Settings) : Settings :=
  { record with
    protocols := o.protocols
    addresses := if o.addresses = [] then record.addresses else o.addresses }

/-- The record that a start settles on, from the one that it finds. -/
def settled (o : Options) (record : Settings) : Settings :=
  (override o record).withFallback

/-- The event of the fallback to the default address. -/
def fallback (o : Options) (record : Settings) : List Event :=
  if (override o record).addresses = [] then [.fallbackUsed] else []

/-- The third step, in one piece: options, fallback, rules. -/
def settle (o : Options) (shared : SharedRecord) : Step (Except Failure Settings) :=
  let record := settled o shared.look
  let events := creation shared ++ fallback o shared.look
  match record.check with
  | .error cause => ⟨.error (.rejected cause), events, shared.put record⟩
  | .ok () =>
    ⟨.ok record, events ++ [.ready record.protocols record.addresses], shared.put record⟩

/-- The event of a file that has been loaded. -/
def loadedEvent (o : Options) (loaded : Option Settings) : List Event :=
  match o.config, loaded with
  | some path, some _ => [.fileLoaded path]
  | _, _ => []

/-- A whole start. -/
def start (files : Files) (o : Options) (shared : SharedRecord) :
    Step (Except Failure Settings) :=
  match load files o with
  | .error failure => ⟨.error failure, [], shared⟩
  | .ok loaded =>
    let seeded := seed loaded shared
    let last := settle o seeded.shared
    ⟨last.result, loadedEvent o loaded ++ seeded.events ++ last.events, last.shared⟩

end BrokerAgent.Startup
