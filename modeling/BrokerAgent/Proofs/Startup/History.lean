import BrokerAgent.Proofs.Startup.Step
import Mathlib.Data.List.DropRight

/-!
# The shared record after many starts

Starts follow each other on one shared record, with the same files throughout. Each field of the
record has a last writer of its own: the protocols come from the last start that took effect, id
and secret from the last file that was loaded, the addresses from the last start since that load
that asked for any. `recordAfter` says so without running anything, and `startAll_law` that the
shared record is what it says.
-/

namespace BrokerAgent.Startup

variable (files : Files)

/-- The shared record after the starts of a history, the first of them first. -/
def startAll (shared : SharedRecord) (history : List Options) : SharedRecord :=
  history.foldl (fun shared o => (start files o shared).shared) shared

/-! ## The history as its readers see it -/

/-- The starts of a history that took effect. -/
def effective (history : List Options) : List Options :=
  history.filter (takesEffect files)

/-- The record of the last file that was loaded. -/
def lastLoaded (history : List Options) : Option Settings :=
  ((effective files history).filterMap (loadedRecord files)).getLast?

/-- Whether a start is given no file. -/
def withoutFile (o : Options) : Bool :=
  o.config.isNone

/-- The effective starts from the last one with a file on, or all of them if none had one. -/
def sinceLoad (history : List Options) : List Options :=
  ((effective files history).rdropWhile withoutFile).getLast?.toList ++
    (effective files history).rtakeWhile withoutFile

/-- The last addresses that any of the starts asked for. -/
def lastAddresses (starts : List Options) : Option (List String) :=
  ((starts.map Options.addresses).filter fun addresses => addresses ≠ []).getLast?

/-- The record that a history leaves behind when it begins with `initial`. -/
def recordAfter (initial : Settings) (history : List Options) : Settings :=
  match (effective files history).getLast? with
  | none => initial
  | some last =>
    let base := (lastLoaded files history).getD initial
    { protocols := last.protocols
      addresses := (lastAddresses (sinceLoad files history)).getD (addressesOrFallback base)
      id := base.id
      secret := base.secret }

/-! ## One more start -/

theorem startAll_concat (shared : SharedRecord) (history : List Options) (o : Options) :
    startAll files shared (history ++ [o]) =
      (start files o (startAll files shared history)).shared := by
  simp [startAll, List.foldl_append]

variable {files}

/-- A last start that takes effect counts. -/
theorem effective_concat_pos {o : Options} (h : takesEffect files o = true)
    (history : List Options) :
    effective files (history ++ [o]) = effective files history ++ [o] := by
  simp [effective, h]

theorem effective_concat_neg {o : Options} (h : takesEffect files o = false)
    (history : List Options) : effective files (history ++ [o]) = effective files history := by
  simp [effective, h]

/-- A start without effect leaves no trace in the closed form. -/
theorem recordAfter_concat_neg {o : Options} (h : takesEffect files o = false)
    (initial : Settings) (history : List Options) :
    recordAfter files initial (history ++ [o]) = recordAfter files initial history := by
  simp only [recordAfter, lastLoaded, sinceLoad, effective_concat_neg h]

/-- An effective start without a file adds itself to those since the last load. -/
theorem sinceLoad_concat_of_none {o : Options} (h : o.config = none) (history : List Options) :
    sinceLoad files (history ++ [o]) = sinceLoad files history ++ [o] := by
  have he : takesEffect files o = true := by simp [takesEffect, h]
  have hn : withoutFile o = true := by simp [withoutFile, h]
  rw [sinceLoad, effective_concat_pos he, List.rdropWhile_concat_pos _ _ _ hn,
    List.rtakeWhile_concat_pos _ _ _ hn, sinceLoad, List.append_assoc]

/-- A start that loads its file begins anew. -/
theorem sinceLoad_concat_of_some {o : Options} {record : Settings}
    (h : loadedRecord files o = some record) (history : List Options) :
    sinceLoad files (history ++ [o]) = [o] := by
  have he : takesEffect files o = true := by simp [takesEffect, h]
  have hn : ¬ withoutFile o = true := by
    intro hc
    rw [loadedRecord, Option.isNone_iff_eq_none.1 hc] at h
    cases h
  rw [sinceLoad, effective_concat_pos he, List.rdropWhile_concat_neg _ _ _ hn,
    List.rtakeWhile_concat_neg _ _ _ hn]
  simp

/-- The record loaded last is that of the last start, if it loads one. -/
theorem lastLoaded_concat_pos {o : Options} (h : takesEffect files o = true)
    (history : List Options) :
    lastLoaded files (history ++ [o]) = (loadedRecord files o).or (lastLoaded files history) := by
  rw [lastLoaded, effective_concat_pos h, List.filterMap_append, List.getLast?_append, lastLoaded]
  cases hr : loadedRecord files o with
  | none => simp [hr]
  | some record => simp [hr]

/-- The addresses given last are those of the last start, if it gives some. -/
theorem lastAddresses_concat (starts : List Options) (o : Options) :
    lastAddresses (starts ++ [o]) =
      if o.addresses ≠ [] then some o.addresses else lastAddresses starts := by
  by_cases h : o.addresses = [] <;> simp [lastAddresses, List.filter_append, h]

theorem lastAddresses_ne_nil {starts : List Options} {addresses : List String}
    (h : lastAddresses starts = some addresses) : addresses ≠ [] := by
  have hm := List.mem_of_getLast? h
  simpa using (List.mem_filter.1 hm).2

/-- The addresses that `recordAfter` gives are never empty. -/
theorem lastAddresses_getD_ne_nil (starts : List Options) (record : Settings) :
    (lastAddresses starts).getD (addressesOrFallback record) ≠ [] := by
  cases h : lastAddresses starts with
  | none => exact addressesOrFallback_ne_nil record
  | some addresses => exact lastAddresses_ne_nil h

/-- What the next start settles on when it finds the record of the closed form and has no file:
its own protocols, its addresses if it asks for any, and the rest as it was. -/
theorem settled_recordAfter {o : Options} (h : o.config = none) (initial : Settings)
    (history : List Options) :
    settled o (recordAfter files initial history) =
      recordAfter files initial (history ++ [o]) := by
  have he : takesEffect files o = true := by simp [takesEffect, h]
  have hl : loadedRecord files o = none := by simp [loadedRecord, h]
  rw [settled_eq, recordAfter.eq_def files initial (history ++ [o]), effective_concat_pos he,
    List.getLast?_concat, lastLoaded_concat_pos he, hl, Option.none_or, sinceLoad_concat_of_none h,
    lastAddresses_concat]
  unfold recordAfter
  cases hlast : (effective files history).getLast? with
  | none =>
    -- nothing has happened yet: no load, no addresses asked for
    have hnil : effective files history = [] := List.getLast?_eq_none_iff.1 hlast
    by_cases ho : o.addresses = [] <;> simp [lastLoaded, sinceLoad, lastAddresses, hnil, ho]
  | some last =>
    have hne := lastAddresses_getD_ne_nil (sinceLoad files history)
      ((lastLoaded files history).getD initial)
    dsimp only
    rw [addressesOrFallback_of_ne_nil hne]
    by_cases ho : o.addresses = [] <;> simp [ho]

/-- What the next start settles on when it loads a file: nothing of the history is left. -/
theorem settled_loaded {o : Options} {record : Settings} (h : loadedRecord files o = some record)
    (initial : Settings) (history : List Options) :
    settled o record = recordAfter files initial (history ++ [o]) := by
  have he : takesEffect files o = true := by simp [takesEffect, h]
  rw [settled_eq, recordAfter, effective_concat_pos he, List.getLast?_concat,
    lastLoaded_concat_pos he, h, Option.some_or, sinceLoad_concat_of_some h]
  by_cases ho : o.addresses = [] <;> simp [lastAddresses, ho]

/-! ## The law -/

/-- The shared record after a history is that of the closed form. -/
theorem record_startAll (shared : SharedRecord) (history : List Options) :
    (startAll files shared history).record = recordAfter files shared.record history := by
  -- from the end: the closed form of the earlier starts is what the last one finds
  induction history using List.reverseRecOn with
  | nil => rfl
  | append_singleton history o ih =>
    rw [startAll_concat, record_start, ih]
    by_cases he : takesEffect files o = true
    · rw [if_pos he]
      cases hl : loadedRecord files o with
      | none =>
        have hc : o.config = none := by simpa [takesEffect, hl] using he
        exact settled_recordAfter hc _ _
      | some record => exact settled_loaded hl _ _
    · rw [if_neg he]
      exact (recordAfter_concat_neg (Bool.not_eq_true _ ▸ he) _ _).symm

variable (files)

/-- After starts none of which took effect the shared record is as it was. After any others, the
last effective one gave the protocols; the last file that was loaded, or else the record of the
beginning, gave id and secret; and the addresses are those that were last asked for since that
load, or else those of that record, or else the default one. They are never empty. -/
theorem startAll_law (shared : SharedRecord) (history : List Options) :
    match (effective files history).getLast? with
    | none => (startAll files shared history).record = shared.record
    | some last =>
      let base := (lastLoaded files history).getD shared.record
      (startAll files shared history).record =
        { protocols := last.protocols
          addresses := (lastAddresses (sinceLoad files history)).getD
            (if base.addresses ≠ [] then base.addresses else [Settings.fallbackAddress])
          id := base.id
          secret := base.secret } ∧
      (startAll files shared history).record.addresses ≠ [] := by
  rw [record_startAll]
  cases hlast : (effective files history).getLast? with
  | none => simp [recordAfter, hlast]
  | some last =>
    have hr : recordAfter files shared.record history =
        { protocols := last.protocols
          addresses := (lastAddresses (sinceLoad files history)).getD
            (addressesOrFallback ((lastLoaded files history).getD shared.record))
          id := ((lastLoaded files history).getD shared.record).id
          secret := ((lastLoaded files history).getD shared.record).secret } := by
      simp only [recordAfter, hlast]
    refine ⟨hr, ?_⟩
    rw [hr]
    exact lastAddresses_getD_ne_nil _ _

end BrokerAgent.Startup
