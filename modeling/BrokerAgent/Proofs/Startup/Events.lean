import BrokerAgent.Proofs.Startup.Outcome

/-!
# What a start reports

The events of a start in the order of its steps (`events_start`): the file, if it has loaded one;
the making of the shared record, if nobody has touched it before; the fallback, if there are no
addresses after the overrides; and the record that it gives, if it gives one. A start whose file
does not load reports nothing.
-/

namespace BrokerAgent.Startup

/-- What a start reports of the record that it gives. -/
def confirmation : Except Failure Settings → List Event
  | .ok record => [.ready record.protocols record.addresses]
  | .error _ => []

/-- No address is left exactly if neither options nor record have one. -/
theorem override_addresses_eq_nil_iff {o : Options} {record : Settings} :
    (override o record).addresses = [] ↔ o.addresses = [] ∧ record.addresses = [] := by
  unfold override
  by_cases ho : o.addresses = []
  · simp [ho]
  · simp [ho]

/-- The fallback is reported exactly if there is no address. -/
theorem fallback_eq (o : Options) (record : Settings) :
    fallback o record =
      if o.addresses = [] ∧ record.addresses = [] then [.fallbackUsed] else [] := by
  simp only [fallback, override_addresses_eq_nil_iff]

/-- The third step reports at the end what it gives. -/
theorem events_settle (o : Options) (shared : SharedRecord) :
    (settle o shared).events =
      creation shared ++ fallback o shared.record ++ confirmation (settle o shared).result := by
  simp only [settle, SharedRecord.look_eq_record]
  split
  · exact (List.append_nil _).symm
  · rfl

/-- A record that is put in place is there for the next look. -/
theorem creation_put (record : Settings) (shared : SharedRecord) :
    creation (shared.put record) = [] :=
  rfl

/-- The shared record is made when it is first touched, to put the record of the file in place or to
settle, and only then. -/
theorem events_start {files : Files} {o : Options} {shared : SharedRecord} {base : Settings}
    (h : startingRecord files o shared.record = .ok base) :
    (start files o shared).events =
      o.config.toList.map .fileLoaded ++ creation shared ++ fallback o base ++
        confirmation (start files o shared).result := by
  unfold startingRecord at h
  cases hc : o.config with
  | none =>
    rw [hc] at h
    obtain rfl := Except.ok.inj h
    simp only [start, load, hc, seed, loadedEvent, events_settle]
    rfl
  | some path =>
    rw [hc] at h
    have hl : Settings.load files path = .ok base := h
    simp only [start, load, hc, hl, seed, loadedEvent, events_settle, creation_put,
      SharedRecord.record_put, List.nil_append, List.append_assoc]
    rfl

/-- The first start of all goes on from its file or from the empty record. -/
theorem startingRecord_empty (files : Files) (o : Options) :
    startingRecord files o {} = Settings.loadIfNamed files o.config := by
  unfold startingRecord
  cases o.config <;> rfl

end BrokerAgent.Startup
