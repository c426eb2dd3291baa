import BrokerAgent.Settings.Basic

/-!
# The shared record

All parts of an agent share one record. It is made, empty, when it is first looked at, and a lock
guards it. A holder of the lock that breaks off leaves a mark on it. The record is plain data and
stays usable, so `SharedRecord.look` gives it with the mark or without.
-/

namespace BrokerAgent

/-- The shared record, whether it has been looked at, and whether a holder of its lock has broken
off. -/
structure SharedRecord where
  record : Settings := {}
  created : Bool := false
  marked : Bool := false
deriving DecidableEq, Repr

/-- What taking the lock gives: the record, with a warning if a holder broke off before. -/
inductive Hold
  | sound (record : Settings)
  | marked (record : Settings)
deriving DecidableEq, Repr

/-- The record that is held, whatever happened to earlier holders. -/
def Hold.record : Hold → Settings
  | sound record | marked record => record

namespace SharedRecord

/-- Takes the lock. -/
def hold (s : SharedRecord) : Hold :=
  if s.marked then .marked s.record else .sound s.record

/-- Takes the lock and gives the record. -/
def look (s : SharedRecord) : Settings :=
  s.hold.record

/-- Makes the record if it is not there. -/
def create (s : SharedRecord) : SharedRecord :=
  { s with created := true }

/-- Puts another record in place of the shared one. -/
def put (record : Settings) (s : SharedRecord) : SharedRecord :=
  { s.create with record := record }

/-- Changes the shared record in place. -/
def update (change : Settings → Settings) (s : SharedRecord) : SharedRecord :=
  s.put (change s.look)

/-- A holder of the lock changes the record and then breaks off. -/
def breakOff (change : Settings → Settings) (s : SharedRecord) : SharedRecord :=
  { s.update change with marked := true }

/-- A holder that broke off does not keep the record from anyone. -/
@[simp] theorem look_eq_record (s : SharedRecord) : s.look = s.record := by
  unfold look hold
  split <;> rfl

@[simp] theorem record_hold (s : SharedRecord) : s.hold.record = s.record :=
  s.look_eq_record

@[simp] theorem record_put (record : Settings) (s : SharedRecord) :
    (s.put record).record = record := rfl

/-- Of two records that are put in place only the later one is left. -/
@[simp] theorem put_put (earlier later : Settings) (s : SharedRecord) :
    (s.put earlier).put later = s.put later := rfl

@[simp] theorem record_update (change : Settings → Settings) (s : SharedRecord) :
    (s.update change).record = change s.record := by
  simp [update]

@[simp] theorem record_breakOff (change : Settings → Settings) (s : SharedRecord) :
    (s.breakOff change).record = change s.record := by
  simp [breakOff]

@[simp] theorem marked_put (record : Settings) (s : SharedRecord) :
    (s.put record).marked = s.marked := rfl

@[simp] theorem marked_update (change : Settings → Settings) (s : SharedRecord) :
    (s.update change).marked = s.marked := by
  simp [update]

end SharedRecord
end BrokerAgent
