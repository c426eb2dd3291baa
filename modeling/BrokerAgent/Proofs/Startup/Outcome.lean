import BrokerAgent.Proofs.Startup.Step

/-!
# What a start answers agrees with what it leaves

A start has two ways out. It ends at the file, before anything is written, or it writes one record,
and then the rules for that very record decide what it answers. So the answer tells what has become
of the shared record, and no start leaves a part of a file behind.
-/

namespace BrokerAgent.Startup

/-- The record that a start goes on from: that of the file it names, or the one that it finds. -/
def startingRecord (files : Files) (o : Options) (found : Settings) : Except Refusal Settings :=
  match o.config with
  | none => .ok found
  | some path => Settings.loadIfNamed files (some path)

/-- A start with a file begins with the record in it. -/
theorem startingRecord_of_load {files : Files} {o : Options} {path : String} {loaded : Settings}
    (hc : o.config = some path) (hl : Settings.load files path = .ok loaded) (found : Settings) :
    startingRecord files o found = .ok loaded := by
  simp only [startingRecord, hc, Settings.loadIfNamed, hl]

/-- A file that is loaded gives its record. -/
theorem loadedRecord_of_load {files : Files} {o : Options} {path : String} {loaded : Settings}
    (hc : o.config = some path) (hl : Settings.load files path = .ok loaded) :
    loadedRecord files o = some loaded := by
  simp only [loadedRecord, hc, Option.bind_some, hl, Except.toOption]

/-- A file that does not load ends the start before anything is touched. -/
theorem start_of_load_error {files : Files} {o : Options} {path : String} {cause : Refusal}
    (hc : o.config = some path) (hl : Settings.load files path = .error cause)
    (shared : SharedRecord) :
    start files o shared = ⟨.error (.loading path cause), [], shared⟩ := by
  simp only [start, load, hc, hl]

/-- Only a file can keep a start from having a record to go on from. -/
theorem load_error_of_startingRecord {files : Files} {o : Options} {found : Settings}
    {cause : Refusal} (h : startingRecord files o found = .error cause) :
    ∃ path, o.config = some path ∧ Settings.load files path = .error cause := by
  unfold startingRecord at h
  split at h
  · cases h
  · exact ⟨_, ‹_›, h⟩

/-- What a start answers when it leaves this record: the record itself, or the rule it breaks. -/
def verdict (record : Settings) : Except Failure Settings :=
  match record.check with
  | .error cause => .error (.rejected cause)
  | .ok () => .ok record

/-- The record is answered with if it keeps the rules, and no other record is. -/
theorem verdict_eq_ok_iff {r record : Settings} :
    verdict r = .ok record ↔ r.check = .ok () ∧ record = r := by
  unfold verdict
  cases r.check with
  | error cause => simp
  | ok _ => simp [eq_comm]

theorem eq_of_verdict_eq_ok {r record : Settings} (h : verdict r = .ok record) : record = r :=
  (verdict_eq_ok_iff.1 h).2

/-- The rules for the settled record decide what the third step answers. -/
theorem result_settle (o : Options) (shared : SharedRecord) :
    (settle o shared).result = verdict (settled o shared.record) := by
  simp only [settle, verdict, SharedRecord.look_eq_record]
  cases (settled o shared.record).check with
  | error cause => rfl
  | ok _ => rfl

/-- The third step puts the settled record in place whether it keeps the rules or not. -/
theorem shared_settle (o : Options) (shared : SharedRecord) :
    (settle o shared).shared = shared.put (settled o shared.record) := by
  simp only [settle, SharedRecord.look_eq_record]
  cases (settled o shared.record).check with
  | error cause => rfl
  | ok _ => rfl

/-- A start that gets past its file leaves the record that it settles on, and answers for it. -/
theorem start_eq {files : Files} {o : Options} {shared : SharedRecord} {base : Settings}
    (h : startingRecord files o shared.record = .ok base) :
    (start files o shared).result = verdict (settled o base) ∧
      (start files o shared).shared = shared.put (settled o base) := by
  unfold startingRecord at h
  cases hc : o.config with
  | none =>
    rw [hc] at h
    have hbase : shared.record = base := Except.ok.inj h
    simp only [start, load, hc, seed]
    rw [result_settle, shared_settle, hbase]
    exact ⟨rfl, rfl⟩
  | some path =>
    rw [hc] at h
    have hl : Settings.load files path = .ok base := h
    simp only [start, load, hc, hl, seed]
    rw [result_settle, shared_settle, SharedRecord.record_put, SharedRecord.put_put]
    exact ⟨rfl, rfl⟩

/-- A record that a start gives is one that it settles on, and keeps the rules. -/
theorem start_eq_ok {files : Files} {o : Options} {shared : SharedRecord} {record : Settings}
    (h : (start files o shared).result = .ok record) :
    record.check = .ok () ∧ ∃ base, record = settled o base := by
  cases hs : startingRecord files o shared.record with
  | error cause =>
    obtain ⟨path, hc, hl⟩ := load_error_of_startingRecord hs
    rw [start_of_load_error hc hl] at h
    cases h
  | ok base =>
    rw [(start_eq hs).1] at h
    obtain ⟨hcheck, rfl⟩ := verdict_eq_ok_iff.1 h
    exact ⟨hcheck, base, rfl⟩

/-- A start whose file does not load fails with the reason for that, and the shared record stays as
it is. Any other start leaves the record that it goes on from with the protocols of its options and
the addresses of the first of options, record and default that has any. It leaves it whether it
succeeds or not: it gives that very record if the record keeps the rules, and fails with the rule
that it breaks if not. -/
theorem start_answers_for_what_it_leaves (files : Files) (o : Options) (shared : SharedRecord) :
    match startingRecord files o shared.record with
    | .error cause =>
      (∃ path, o.config = some path ∧
        (start files o shared).result = .error (.loading path cause)) ∧
      (start files o shared).shared = shared
    | .ok base =>
      let merged : Settings :=
        { base with
          protocols := o.protocols
          addresses :=
            if o.addresses ≠ [] then o.addresses
            else if base.addresses ≠ [] then base.addresses
            else [Settings.fallbackAddress] }
      (start files o shared).shared.record = merged ∧
      (start files o shared).shared.look = merged ∧
      (start files o shared).result =
        match merged.check with
        | .error cause => .error (.rejected cause)
        | .ok () => .ok merged := by
  cases hs : startingRecord files o shared.record with
  | error cause =>
    obtain ⟨path, hc, hl⟩ := load_error_of_startingRecord hs
    have hstart := start_of_load_error hc hl shared
    exact ⟨⟨path, hc, congrArg Step.result hstart⟩, congrArg Step.shared hstart⟩
  | ok base =>
    obtain ⟨hresult, hshared⟩ := start_eq hs
    have hmerged := settled_eq o base
    rw [addressesOrFallback] at hmerged
    have hrecord : (start files o shared).shared.record = settled o base := by
      rw [hshared, SharedRecord.record_put]
    rw [hmerged] at hrecord hresult
    refine ⟨hrecord, ?_, hresult⟩
    rw [SharedRecord.look_eq_record]
    exact hrecord

end BrokerAgent.Startup
