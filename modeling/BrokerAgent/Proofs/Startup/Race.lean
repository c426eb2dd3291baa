import BrokerAgent.Proofs.Startup.Phases
import Mathlib.Logic.Function.Basic

/-!
# Two starts that share a record

Two starts take their steps in any order. What they would come to in either order, if no more came
in between, is `Race.inOrder`. A step leaves that as it is, or takes it to the other order, or
makes both sides settle on one loaded record: `Race.inOrder_step`. `Race.outcome_of_run` carries
this through a schedule, and `Race.outcome_of_undivided_run` says what rules the last case out.
-/

namespace BrokerAgent.Startup

/-- One of two starts. -/
inductive Side
  | first
  | second
deriving DecidableEq, Repr

namespace Side

def other : Side → Side
  | first => second
  | second => first

@[simp] theorem other_other (side : Side) : side.other.other = side := by
  cases side <;> rfl

theorem other_ne (side : Side) : side.other ≠ side := by
  cases side <;> decide

theorem eq_or_eq_other (a b : Side) : a = b ∨ a = b.other := by
  cases a <;> cases b <;> decide

end Side

/-! ## Outcomes -/

/-- What two starts answer, and the record they leave. -/
@[ext]
structure Outcome where
  answer : Side → Except Failure Settings
  record : Settings

/-- The outcome in which one side gives the first answer and the other side the second. -/
def Outcome.of (side : Side) (first second : Except Failure Settings) (record : Settings) :
    Outcome where
  answer s := if s = side then first else second
  record := record

@[simp] theorem Outcome.answer_of_self (side : Side) (first second : Except Failure Settings)
    (record : Settings) : (Outcome.of side first second record).answer side = first :=
  if_pos rfl

@[simp] theorem Outcome.answer_of_other (side : Side) (first second : Except Failure Settings)
    (record : Settings) : (Outcome.of side first second record).answer side.other = second :=
  if_neg side.other_ne

/-- An outcome may be written from either side. -/
theorem Outcome.of_other (side : Side) (first second : Except Failure Settings)
    (record : Settings) :
    Outcome.of side.other second first record = Outcome.of side first second record := by
  refine Outcome.ext ?_ rfl
  funext s
  cases side <;> cases s <;> rfl

variable (files : Files) (o : Side → Options)

/-- The outcome of two starts one after the other. -/
def serial (leader : Side) (shared : SharedRecord) : Outcome :=
  let first := start files (o leader) shared
  let second := start files (o leader.other) first.shared
  .of leader first.result second.result second.shared.record

/-- The outcome of two starts that settle, one after the other, on one and the same record. -/
def settledBoth (leader : Side) (record : Settings) : Outcome :=
  let first := settled (o leader) record
  let second := settled (o leader.other) first
  .of leader (verdict first) (verdict second) second

/-! ## Schedules -/

/-- How far two starts have got, and the record they share. -/
structure Race where
  phase : Side → Phase
  shared : SharedRecord

namespace Race

/-- Nothing has been done yet. -/
def begin (shared : SharedRecord) : Race where
  phase _ := .loading
  shared := shared

/-- One side takes its next step. -/
def step (r : Race) (side : Side) : Race :=
  let next := advance files (o side) (r.phase side) r.shared
  { phase := Function.update r.phase side next.1, shared := next.2 }

/-- The sides take their steps in the order of a schedule. -/
def run (r : Race) (schedule : List Side) : Race :=
  schedule.foldl (step files o) r

/-- Both sides have answered. -/
def EndsWith (r : Race) (e : Outcome) : Prop :=
  (∀ side, r.phase side = .done (e.answer side)) ∧ r.shared.record = e.record

/-- No side takes the lock while the other one has put its record in place and not settled. -/
def Undivided : Race → List Side → Prop
  | _, [] => True
  | r, side :: schedule =>
    ((r.phase side).locks = true → r.phase side.other ≠ .settling true) ∧
      Undivided (r.step files o side) schedule

/-- The outcome if one side takes all its steps that are left and then the other one. -/
def inOrder (leader : Side) (r : Race) : Outcome :=
  let first := finish files (o leader) (r.phase leader) r.shared
  let second := finish files (o leader.other) (r.phase leader.other) first.2
  .of leader first.1 second.1 second.2.record

variable {files o}

/-- At the beginning of a race everything is left to do. -/
theorem inOrder_begin (leader : Side) (shared : SharedRecord) :
    (begin shared).inOrder files o leader = serial files o leader shared := rfl

/-! ## What a step does to the two orders -/

@[simp] theorem phase_step_self (r : Race) (side : Side) :
    (r.step files o side).phase side = (advance files (o side) (r.phase side) r.shared).1 :=
  Function.update_self ..

@[simp] theorem phase_step_other (r : Race) (side : Side) :
    (r.step files o side).phase side.other = r.phase side.other :=
  Function.update_of_ne side.other_ne ..

@[simp] theorem shared_step (r : Race) (side : Side) :
    (r.step files o side).shared = (advance files (o side) (r.phase side) r.shared).2 := rfl

/-- The order of two sides makes no difference when one of them is idle. -/
theorem inOrder_of_idle {r : Race} {side : Side} (h : Idle files (o side) (r.phase side)) :
    r.inOrder files o side.other = r.inOrder files o side := by
  obtain ⟨answer, h⟩ := h
  simp only [inOrder, Side.other_other, h]
  exact Outcome.of_other side _ _ _

/-- A step of the side that goes first changes nothing. -/
theorem inOrder_step_self (r : Race) (side : Side) :
    (r.step files o side).inOrder files o side = r.inOrder files o side := by
  simp only [inOrder, phase_step_self, phase_step_other]
  rw [step, finish_advance]

/-- A step without the lock changes nothing in either order. -/
theorem inOrder_step_of_not_locks {r : Race} {side : Side} (h : (r.phase side).locks = false)
    (leader : Side) : (r.step files o side).inOrder files o leader = r.inOrder files o leader := by
  rcases Side.eq_or_eq_other leader side with rfl | rfl
  · exact inOrder_step_self r leader
  · obtain ⟨hshared, hfinish⟩ := @advance_of_not_locks files (o side) _ h r.shared
    simp only [inOrder, Side.other_other, phase_step_self, phase_step_other, hfinish]
    rw [step, hshared]

/-- After a step that settles, both orders come to what they came to with that step first. -/
theorem inOrder_step_settling {r : Race} {side : Side} {seeded : Bool}
    (h : r.phase side = .settling seeded) (leader : Side) :
    (r.step files o side).inOrder files o leader = r.inOrder files o side := by
  have hidle : Idle files (o side) ((r.step files o side).phase side) := by
    rw [phase_step_self, h]
    exact ⟨_, fun _ => rfl⟩
  rcases Side.eq_or_eq_other leader side with rfl | rfl
  · exact inOrder_step_self r leader
  · rw [inOrder_of_idle hidle, inOrder_step_self]

/-- After a step that puts a record in place, the other side may still lead. Then either it has
nothing to settle, or both sides settle on that record or both on the one of the other side. -/
theorem inOrder_step_seeding {r : Race} {side : Side} {record : Settings}
    (h : r.phase side = .seeding record)
    (hsound : (r.phase side.other).Sound files (o side.other)) :
    (r.step files o side).inOrder files o side.other = r.inOrder files o side ∨
      takesEffect files (o side.other) = true ∧
        ∃ base, (base = record ∨ loadedRecord files (o side.other) = some base) ∧
          (r.step files o side).inOrder files o side.other = settledBoth o side.other base := by
  rcases finish_cases hsound with hidle | ⟨he, hfinish⟩
  · left
    have hidle' : Idle files (o side.other) ((r.step files o side).phase side.other) := by
      rw [phase_step_other]
      exact hidle
    rw [← inOrder_of_idle hidle', Side.other_other, inOrder_step_self]
  · right
    have hphase : (r.step files o side).phase side = .settling true := by
      rw [phase_step_self, h]
      rfl
    have hshared : (r.step files o side).shared.record = record := by
      rw [step, h]
      rfl
    obtain ⟨base, hbase, hfinish⟩ := hfinish (r.step files o side).shared
    rw [hshared] at hbase
    refine ⟨he, base, hbase, ?_⟩
    simp only [inOrder, phase_step_other, hfinish, Side.other_other, hphase, finish_settling,
      SharedRecord.record_put, settledBoth]

end Race

/-- Both starts take effect, and both settle on one record that one of them has loaded. -/
def SettledOnOne (files : Files) (o : Side → Options) (e : Outcome) : Prop :=
  (∀ side, takesEffect files (o side) = true) ∧ ∃ leader owner record,
    loadedRecord files (o owner) = some record ∧ e = settledBoth o leader record

namespace Race

variable {files o}

/-- After a step both sides are in sound phases. -/
theorem sound_step {r : Race} (h : ∀ side, (r.phase side).Sound files (o side)) (side : Side) :
    ∀ s, ((r.step files o side).phase s).Sound files (o s) := by
  intro s
  rcases Side.eq_or_eq_other s side with rfl | rfl
  · rw [phase_step_self]
    exact (h s).advance r.shared
  · rw [phase_step_other]
    exact h side.other

/-- Whatever a step does, each order that is left comes to what one of the orders came to before,
or both sides settle on one loaded record. -/
theorem inOrder_step {r : Race} (hsound : ∀ side, (r.phase side).Sound files (o side))
    (side leader : Side) :
    (∃ before, (r.step files o side).inOrder files o leader = r.inOrder files o before) ∨
      SettledOnOne files o ((r.step files o side).inOrder files o leader) := by
  rcases Side.eq_or_eq_other leader side with rfl | rfl
  · exact .inl ⟨leader, inOrder_step_self r leader⟩
  cases hp : r.phase side with
  | loading =>
    have hl : (r.phase side).locks = false := congrArg Phase.locks hp
    exact .inl ⟨side.other, inOrder_step_of_not_locks hl side.other⟩
  | done answer =>
    have hl : (r.phase side).locks = false := congrArg Phase.locks hp
    exact .inl ⟨side.other, inOrder_step_of_not_locks hl side.other⟩
  | settling seeded => exact .inl ⟨side, inOrder_step_settling hp side.other⟩
  | seeding record =>
    rcases inOrder_step_seeding hp (hsound side.other) with h | ⟨heffect, base, hbase, h⟩
    · exact .inl ⟨side, h⟩
    · right
      have hrecord : loadedRecord files (o side) = some record := by
        have hs := hsound side
        rwa [hp] at hs
      refine ⟨?_, side.other, ?_⟩
      · intro s
        rcases Side.eq_or_eq_other s side with rfl | rfl
        · simp [takesEffect, hrecord]
        · exact heffect
      · rcases hbase with rfl | hbase
        · exact ⟨side, base, hrecord, h⟩
        · exact ⟨side.other, base, hbase, h⟩

/-! ## All schedules -/

/-- Where nothing is left to do the outcome is the one in either order. -/
theorem outcome_of_ended {r : Race} {e : Outcome} (h : r.EndsWith e) (leader : Side) :
    e = r.inOrder files o leader := by
  obtain ⟨hphase, hrecord⟩ := h
  simp only [inOrder, hphase, finish]
  refine Outcome.ext ?_ hrecord.symm
  funext s
  rcases Side.eq_or_eq_other s leader with rfl | rfl
  · rw [Outcome.answer_of_self]
  · rw [Outcome.answer_of_other]

/-- From any point on, two starts come to what they come to in one of the two orders, or they
settle on one loaded record. -/
theorem outcome_of_run {r : Race} (hsound : ∀ side, (r.phase side).Sound files (o side))
    {schedule : List Side} {e : Outcome} (h : (r.run files o schedule).EndsWith e) :
    (∃ leader, e = r.inOrder files o leader) ∨ SettledOnOne files o e := by
  induction schedule generalizing r with
  | nil => exact .inl ⟨.first, outcome_of_ended h .first⟩
  | cons side schedule ih =>
    rcases ih (sound_step hsound side) h with ⟨leader, rfl⟩ | hone
    · exact inOrder_step hsound side leader
    · exact .inr hone

/-- Where the lock is not taken in between, two starts come to what they come to in one of the two
orders, and a side that has put its record in place goes first. -/
theorem outcome_of_undivided_run {r : Race} {schedule : List Side} {e : Outcome}
    (hundivided : r.Undivided files o schedule) (h : (r.run files o schedule).EndsWith e) :
    (∃ leader, e = r.inOrder files o leader) ∧
      ∀ side, r.phase side = .settling true → e = r.inOrder files o side := by
  induction schedule generalizing r with
  | nil => exact ⟨⟨.first, outcome_of_ended h .first⟩, fun side _ => outcome_of_ended h side⟩
  | cons side schedule ih =>
    obtain ⟨hother, hrest⟩ := hundivided
    obtain ⟨⟨leader, hleader⟩, hopen⟩ := ih hrest h
    by_cases hl : (r.phase side).locks = true
    · -- the side takes the lock, and goes first from here on
      have hside : e = r.inOrder files o side := by
        cases hp : r.phase side with
        | seeding record =>
          have hphase : (r.step files o side).phase side = .settling true := by
            rw [phase_step_self, hp]
            rfl
          exact (hopen side hphase).trans (inOrder_step_self r side)
        | settling seeded => exact hleader.trans (inOrder_step_settling hp leader)
        | loading => rw [hp] at hl; cases hl
        | done answer => rw [hp] at hl; cases hl
      refine ⟨⟨side, hside⟩, ?_⟩
      intro s hs
      rcases Side.eq_or_eq_other s side with rfl | rfl
      · exact hside
      · exact absurd hs (hother hl)
    · -- the orders come to the same as before the step
      have hsame : ∀ leader, (r.step files o side).inOrder files o leader =
          r.inOrder files o leader :=
        inOrder_step_of_not_locks (Bool.eq_false_iff.2 hl)
      refine ⟨⟨leader, hleader.trans (hsame leader)⟩, ?_⟩
      intro s hs
      rcases Side.eq_or_eq_other s side with rfl | rfl
      · rw [hs] at hl
        exact absurd rfl hl
      · have hphase : (r.step files o side).phase side.other = .settling true := by
          rw [phase_step_other]
          exact hs
        exact (hopen side.other hphase).trans (hsame side.other)

end Race
end BrokerAgent.Startup
