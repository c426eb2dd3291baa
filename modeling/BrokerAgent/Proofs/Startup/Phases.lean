import BrokerAgent.Proofs.Startup.Outcome

/-!
# A start in phases

A start reads its file without the shared record. Then it takes the lock, twice if it has loaded a
record, to put that record in place and to settle, and once if it has not. `advance` is one of these
steps, and `finish` is what a start comes to when nothing comes between the steps it has left.
`finish_cases` says how little of the shared record counts for that.
-/

namespace BrokerAgent.Startup

/-- How far a start has got: what it does next, or what it has answered. -/
inductive Phase
  | loading
  | seeding (record : Settings)
  /-- To settle, after a record of its own has been put in place or without one. -/
  | settling (seeded : Bool)
  | done (answer : Except Failure Settings)

namespace Phase

/-- Whether the next step takes the lock. -/
def locks : Phase → Bool
  | seeding _ | settling _ => true
  | loading | done _ => false

end Phase

variable (files : Files) (o : Options)

/-- The next step of a start. -/
def advance : Phase → SharedRecord → Phase × SharedRecord
  | .loading, shared =>
    match load files o with
    | .error failure => (.done (.error failure), shared)
    | .ok none => (.settling false, shared)
    | .ok (some record) => (.seeding record, shared)
  | .seeding record, shared => (.settling true, (seed (some record) shared).shared)
  | .settling _, shared => (.done (settle o shared).result, (settle o shared).shared)
  | .done answer, shared => (.done answer, shared)

/-- What a start answers and leaves when it goes through the rest of its steps at one go. -/
def finish : Phase → SharedRecord → Except Failure Settings × SharedRecord
  | .loading, shared => ((start files o shared).result, (start files o shared).shared)
  | .seeding record, shared =>
    let seeded := (seed (some record) shared).shared
    ((settle o seeded).result, (settle o seeded).shared)
  | .settling _, shared => ((settle o shared).result, (settle o shared).shared)
  | .done answer, shared => (answer, shared)

/-- What a phase knows of the file. -/
def Phase.Sound : Phase → Prop
  | .seeding record => loadedRecord files o = some record
  | .settling _ => takesEffect files o = true
  | _ => True

/-- A start that has come so far will leave the shared record alone. -/
def Idle (p : Phase) : Prop :=
  ∃ answer, ∀ shared, finish files o p shared = (answer, shared)

variable {files o}

/-! ## One step and the rest -/

/-- A step brings a start nearer to the same end. -/
theorem finish_advance (p : Phase) (shared : SharedRecord) :
    finish files o (advance files o p shared).1 (advance files o p shared).2 =
      finish files o p shared := by
  cases p with
  | loading =>
    simp only [advance, finish, start]
    cases load files o with
    | error failure => rfl
    | ok loaded => cases loaded <;> rfl
  | _ => rfl

/-- Three steps are enough. -/
theorem advance_three (p : Phase) (shared : SharedRecord) :
    let one := advance files o p shared
    let two := advance files o one.1 one.2
    ∃ answer, (advance files o two.1 two.2).1 = .done answer := by
  cases p with
  | loading =>
    simp only [advance]
    cases load files o with
    | error failure => exact ⟨_, rfl⟩
    | ok loaded => cases loaded <;> exact ⟨_, rfl⟩
  | _ => exact ⟨_, rfl⟩

/-- A start that loads a record puts it in place next. -/
theorem advance_loading_some {record : Settings} (h : loadedRecord files o = some record)
    (shared : SharedRecord) : advance files o .loading shared = (.seeding record, shared) := by
  have he : takesEffect files o = true := by simp [takesEffect, h]
  rcases load_cases files o with ⟨-, hl⟩ | ⟨hn, -⟩
  · simp only [advance, hl, h]
  · rw [he] at hn
    cases hn

/-- One that has no file settles next. -/
theorem advance_loading_none (he : takesEffect files o = true) (h : loadedRecord files o = none)
    (shared : SharedRecord) : advance files o .loading shared = (.settling false, shared) := by
  rcases load_cases files o with ⟨-, hl⟩ | ⟨hn, -⟩
  · simp only [advance, hl, h]
  · rw [he] at hn
    cases hn

/-- To settle is the last step. -/
theorem advance_settling (seeded : Bool) (shared : SharedRecord) :
    advance files o (.settling seeded) shared =
      (.done (verdict (settled o shared.record)), shared.put (settled o shared.record)) := by
  simp only [advance, shared_settle, result_settle]

/-- A step without the lock leaves the shared record as it is, and does not look at it either. -/
theorem advance_of_not_locks {p : Phase} (h : p.locks = false) (shared : SharedRecord) :
    (advance files o p shared).2 = shared ∧
      ∀ other, finish files o (advance files o p shared).1 other = finish files o p other := by
  cases p with
  | loading =>
    refine ⟨?_, fun other => ?_⟩
    · simp only [advance]
      cases load files o with
      | error failure => rfl
      | ok loaded => cases loaded <;> rfl
    · rw [← finish_advance .loading other]
      simp only [advance]
      cases load files o with
      | error failure => rfl
      | ok loaded => cases loaded <;> rfl
  | done answer => exact ⟨rfl, fun _ => rfl⟩
  | seeding record => cases h
  | settling seeded => cases h

/-- A step leads from a sound phase to a sound one. -/
theorem Phase.Sound.advance {p : Phase} (h : p.Sound files o) (shared : SharedRecord) :
    (advance files o p shared).1.Sound files o := by
  cases p with
  | loading =>
    simp only [Startup.advance]
    rcases load_cases files o with ⟨he, hl⟩ | ⟨-, failure, hl⟩
    · rw [hl]
      cases hr : loadedRecord files o with
      | none => exact he
      | some record => exact hr
    · rw [hl]
      trivial
  | seeding record =>
    show takesEffect files o = true
    have hr : loadedRecord files o = some record := h
    simp [takesEffect, hr]
  | settling seeded => trivial
  | done answer => trivial

/-! ## What is left of a start -/

theorem finish_settling (seeded : Bool) (shared : SharedRecord) :
    finish files o (.settling seeded) shared =
      (verdict (settled o shared.record), shared.put (settled o shared.record)) := by
  simp only [finish, shared_settle, result_settle]

theorem finish_seeding (record : Settings) (shared : SharedRecord) :
    finish files o (.seeding record) shared =
      (verdict (settled o record), shared.put (settled o record)) := by
  show finish files o (.settling true) (shared.put record) = _
  rw [finish_settling, SharedRecord.record_put, SharedRecord.put_put]

/-- What is left of a start leaves the shared record alone, or settles and answers for that: on
the record that is there or on the one of its own file. -/
theorem finish_cases {p : Phase} (h : p.Sound files o) :
    Idle files o p ∨ takesEffect files o = true ∧ ∀ shared : SharedRecord,
      ∃ base, (base = shared.record ∨ loadedRecord files o = some base) ∧
        finish files o p shared = (verdict (settled o base), shared.put (settled o base)) := by
  cases p with
  | loading =>
    rcases load_cases files o with ⟨he, hl⟩ | ⟨-, failure, hl⟩
    · refine .inr ⟨he, ?_⟩
      intro shared
      rw [← finish_advance]
      simp only [advance, hl]
      cases hr : loadedRecord files o with
      | none => exact ⟨shared.record, .inl rfl, finish_settling false shared⟩
      | some record => exact ⟨record, .inr rfl, finish_seeding record shared⟩
    · refine .inl ⟨.error failure, ?_⟩
      intro shared
      rw [← finish_advance]
      simp only [advance, hl, finish]
  | seeding record =>
    have hr : loadedRecord files o = some record := h
    have he : takesEffect files o = true := by simp [takesEffect, hr]
    exact .inr ⟨he, fun shared => ⟨record, .inr hr, finish_seeding record shared⟩⟩
  | settling seeded =>
    exact .inr ⟨h, fun shared => ⟨shared.record, .inl rfl, finish_settling seeded shared⟩⟩
  | done answer => exact .inl ⟨answer, fun _ => rfl⟩

end BrokerAgent.Startup
