import BrokerAgent.Startup

/-!
# What one start does to the shared record

A start either fails to load its file, and then nothing happens, or it leaves the record that it
settles on, whether that record is accepted or not. `record_start` says both at once; the fields
of the settled record follow.
-/

namespace BrokerAgent.Startup

/-! ## The record that a start settles on -/

/-- The addresses of a record, or the default one where it has none. -/
def addressesOrFallback (record : Settings) : List String :=
  if record.addresses ≠ [] then record.addresses else [Settings.fallbackAddress]

/-- With the fallback there is always an address. -/
theorem addressesOrFallback_ne_nil (record : Settings) : addressesOrFallback record ≠ [] := by
  unfold addressesOrFallback
  split
  · assumption
  · exact List.cons_ne_nil _ _

theorem addressesOrFallback_of_ne_nil {record : Settings} (h : record.addresses ≠ []) :
    addressesOrFallback record = record.addresses :=
  if_pos h

/-- Protocols come from the options, and so do addresses if the options give any. Everything else
is that of the record, with the default address where there is none. -/
theorem settled_eq (o : Options) (record : Settings) :
    settled o record =
      { protocols := o.protocols
        addresses := if o.addresses ≠ [] then o.addresses else addressesOrFallback record
        id := record.id
        secret := record.secret } := by
  unfold settled override Settings.withFallback addressesOrFallback
  by_cases ho : o.addresses = []
  · by_cases hr : record.addresses = []
    · simp [ho, hr]
    · simp [ho, hr]
  · simp [ho]

/-! ## Loading -/

/-- The record of the file that a start is given, if it is given one and the file loads. -/
def loadedRecord (files : Files) (o : Options) : Option Settings :=
  o.config.bind fun path => (Settings.load files path).toOption

/-- A start takes effect unless it is given a file and the file does not load. -/
def takesEffect (files : Files) (o : Options) : Bool :=
  o.config.isNone || (loadedRecord files o).isSome

/-- The first step in the words above. -/
theorem load_cases (files : Files) (o : Options) :
    (takesEffect files o = true ∧ load files o = .ok (loadedRecord files o)) ∨
    (takesEffect files o = false ∧ ∃ failure, load files o = .error failure) := by
  unfold takesEffect load loadedRecord
  cases o.config with
  | none => simp
  | some path =>
    cases h : Settings.load files path with
    | error cause => simp [h, Except.toOption]
    | ok record => simp [h, Except.toOption]

/-! ## The whole start -/

/-- A loaded record takes the place of the shared one. -/
@[simp] theorem record_seed (loaded : Option Settings) (shared : SharedRecord) :
    (seed loaded shared).shared.record = loaded.getD shared.record := by
  cases loaded <;> rfl

/-- The third step leaves the settled record in place even when it breaks a rule. -/
@[simp] theorem record_settle (o : Options) (shared : SharedRecord) :
    (settle o shared).shared.record = settled o shared.record := by
  simp only [settle, SharedRecord.look_eq_record]
  split
  · exact SharedRecord.record_put _ _
  · exact SharedRecord.record_put _ _

/-- A start without effect keeps the shared record; any other leaves what it settles on. -/
theorem record_start (files : Files) (o : Options) (shared : SharedRecord) :
    (start files o shared).shared.record =
      if takesEffect files o then settled o ((loadedRecord files o).getD shared.record)
      else shared.record := by
  unfold start
  rcases load_cases files o with ⟨he, hl⟩ | ⟨he, failure, hl⟩
  · rw [hl, he, if_pos rfl]
    simp only [record_settle, record_seed]
  · rw [hl, he]
    rfl

end BrokerAgent.Startup
