import BrokerAgent.Proofs.Json.RoundTrip
import BrokerAgent.Proofs.Startup.Race

/-!
# Two starts at once

While one of two starts has put its record in place and has not settled yet, the other one may
take the lock. If it does, one loaded record can be all that is left for both to settle on, and a
start may answer with the id of the other one's file. `outcome_of_interleaving` says that nothing
else can go wrong, and that nothing does where the lock is not taken in between.
-/

namespace BrokerAgent.Startup
namespace Race

variable {files : Files} {o : Side → Options}

/-! ## Schedules for the outcomes -/

/-- One side takes all its steps, and then the other one. -/
def inTurn (leader : Side) : List Side :=
  [leader, leader, leader] ++ [leader.other, leader.other, leader.other]

theorem run_append (r : Race) (earlier later : List Side) :
    r.run files o (earlier ++ later) = (r.run files o earlier).run files o later :=
  List.foldl_append

/-- Three steps of one side, while the other one waits, are all of its steps. -/
theorem run_three (r : Race) (side : Side) :
    (∃ answer, (r.run files o [side, side, side]).phase side = .done answer) ∧
      (r.run files o [side, side, side]).phase side.other = r.phase side.other ∧
      (r.run files o [side, side, side]).inOrder files o side = r.inOrder files o side := by
  refine ⟨?_, ?_, ?_⟩
  · simp only [run, List.foldl_cons, List.foldl_nil, phase_step_self, shared_step]
    exact advance_three (r.phase side) r.shared
  · simp only [run, List.foldl_cons, List.foldl_nil, phase_step_other]
  · simp only [run, List.foldl_cons, List.foldl_nil, inOrder_step_self]

/-- Each order is the outcome of a schedule. -/
theorem endsWith_inTurn (r : Race) (leader : Side) :
    (r.run files o (inTurn leader)).EndsWith (r.inOrder files o leader) := by
  rw [inTurn, run_append]
  obtain ⟨⟨first, hfirst⟩, -, hleader⟩ := @run_three files o r leader
  generalize r.run files o [leader, leader, leader] = r' at hfirst hleader ⊢
  obtain ⟨⟨second, hsecond⟩, hkept, hother⟩ := @run_three files o r' leader.other
  generalize r'.run files o [leader.other, leader.other, leader.other] = r'' at *
  rw [Side.other_other, hfirst] at hkept
  have hidle : Idle files (o leader) (r'.phase leader) := by
    rw [hfirst]
    exact ⟨first, fun _ => rfl⟩
  have hsame : r.inOrder files o leader = r''.inOrder files o leader.other := by
    rw [hother, inOrder_of_idle hidle, hleader]
  have hended : r''.EndsWith (Outcome.of leader first second r''.shared.record) := by
    refine ⟨?_, rfl⟩
    intro s
    rcases Side.eq_or_eq_other s leader with rfl | rfl
    · rw [hkept, Outcome.answer_of_self]
    · rw [hsecond, Outcome.answer_of_other]
  rw [hsame, ← outcome_of_ended hended leader.other]
  exact hended

/-- No start is divided in a schedule exactly if none is in its parts. -/
theorem undivided_append {r : Race} {earlier later : List Side} :
    r.Undivided files o (earlier ++ later) ↔
      r.Undivided files o earlier ∧ (r.run files o earlier).Undivided files o later := by
  induction earlier generalizing r with
  | nil => exact ⟨fun h => ⟨trivial, h⟩, And.right⟩
  | cons side earlier ih =>
    simp only [List.cons_append, Undivided, run, List.foldl_cons, ih, and_assoc]

/-- Steps of one side alone come between no steps of the other one that has not begun its own. -/
theorem undivided_three {r : Race} {side : Side} (h : r.phase side.other ≠ .settling true) :
    r.Undivided files o [side, side, side] := by
  simp only [Undivided, phase_step_other]
  exact ⟨fun _ => h, fun _ => h, fun _ => h, trivial⟩

/-- Starts that take turns are not divided. -/
theorem undivided_inTurn (shared : SharedRecord) (leader : Side) :
    (begin shared).Undivided files o (inTurn leader) := by
  obtain ⟨⟨answer, hdone⟩, -, -⟩ := @run_three files o (begin shared) leader
  refine undivided_append.2 ⟨undivided_three ?_, undivided_three ?_⟩
  · intro hother
    cases hother
  · rw [Side.other_other, hdone]
    intro hleader
    cases hleader

/-- Two sides that have nothing left but to settle do so on the record that is there. -/
theorem endsWith_of_settling {r : Race} (h : ∀ side, ∃ seeded, r.phase side = .settling seeded)
    (leader : Side) :
    (r.run files o [leader, leader.other]).EndsWith (settledBoth o leader r.shared.record) := by
  obtain ⟨one, hone⟩ := h leader
  obtain ⟨two, htwo⟩ := h leader.other
  have hleader := @phase_step_other files o (r.step files o leader) leader.other
  simp only [Side.other_other, phase_step_self, hone, advance_settling] at hleader
  refine ⟨?_, ?_⟩
  · intro side
    simp only [run, List.foldl_cons, List.foldl_nil]
    rcases Side.eq_or_eq_other side leader with rfl | rfl
    · rw [hleader, settledBoth, Outcome.answer_of_self]
    · rw [phase_step_self, phase_step_other, htwo, shared_step, hone, advance_settling,
        advance_settling, settledBoth, Outcome.answer_of_other, SharedRecord.record_put]
  · simp only [run, List.foldl_cons, List.foldl_nil, shared_step, phase_step_other, hone, htwo,
      advance_settling, SharedRecord.record_put]
    rfl

/-- Two steps of a side that loads a record put it in place. -/
theorem run_two {r : Race} {side : Side} {record : Settings} (hp : r.phase side = .loading)
    (hrecord : loadedRecord files (o side) = some record) :
    (r.run files o [side, side]).phase side = .settling true ∧
      (r.run files o [side, side]).phase side.other = r.phase side.other ∧
      (r.run files o [side, side]).shared.record = record := by
  simp only [run, List.foldl_cons, List.foldl_nil, phase_step_self, phase_step_other, shared_step,
    hp, advance_loading_some hrecord]
  exact ⟨rfl, trivial, rfl⟩

/-- A side that takes effect gets to where it has nothing left but to settle. -/
theorem exists_run_settling {r : Race} {side : Side} (hp : r.phase side = .loading)
    (he : takesEffect files (o side) = true) :
    ∃ schedule seeded, (r.run files o schedule).phase side = .settling seeded ∧
      (r.run files o schedule).phase side.other = r.phase side.other := by
  cases hrecord : loadedRecord files (o side) with
  | none =>
    refine ⟨[side], false, ?_⟩
    simp only [run, List.foldl_cons, List.foldl_nil, phase_step_self, phase_step_other, hp,
      advance_loading_none he hrecord, and_self]
  | some record =>
    obtain ⟨hside, hother, -⟩ := run_two hp hrecord
    exact ⟨[side, side], true, hside, hother⟩

/-- Both sides can come to settle on any record that one of them loads. -/
theorem exists_run_settledBoth (he : ∀ side, takesEffect files (o side) = true) {owner : Side}
    {record : Settings} (hrecord : loadedRecord files (o owner) = some record) (leader : Side)
    (shared : SharedRecord) :
    ∃ schedule, ((begin shared).run files o schedule).EndsWith (settledBoth o leader record) := by
  -- the other side gets ready to settle, and only then the record is put in place
  obtain ⟨earlier, seeded, hother, howner⟩ :=
    @exists_run_settling files o (begin shared) owner.other rfl (he owner.other)
  rw [Side.other_other] at howner
  obtain ⟨hsettling, hkept, hshared⟩ := run_two howner hrecord
  refine ⟨earlier ++ [owner, owner] ++ [leader, leader.other], ?_⟩
  rw [run_append, run_append]
  generalize ((begin shared).run files o earlier).run files o [owner, owner] = r at *
  have hready : ∀ side, ∃ seeded, r.phase side = .settling seeded := by
    intro side
    rcases Side.eq_or_eq_other side owner with rfl | rfl
    · exact ⟨true, hsettling⟩
    · exact ⟨seeded, hkept.trans hother⟩
  rw [← hshared]
  exact endsWith_of_settling hready leader

end Race

/-! ## Whose record a start answers with -/

/-- A record has the id and the secret of the file that the options name. -/
def IdentityFrom (files : Files) (o : Options) (record : Settings) : Prop :=
  ∃ loaded, loadedRecord files o = some loaded ∧
    record.id = loaded.id ∧ record.secret = loaded.secret

/-- No option changes the id or the secret. -/
theorem identity_settled (o : Options) (record : Settings) :
    (settled o record).id = record.id ∧ (settled o record).secret = record.secret := by
  rw [settled_eq]
  exact ⟨rfl, rfl⟩

/-- A start alone that is given a file answers with the identity in it. -/
theorem identityFrom_of_start {files : Files} {o : Options} {shared : SharedRecord}
    {record : Settings} (hc : o.config ≠ none)
    (h : (start files o shared).result = .ok record) : IdentityFrom files o record := by
  obtain ⟨path, hpath⟩ := Option.ne_none_iff_exists'.1 hc
  cases hl : Settings.load files path with
  | error cause =>
    rw [start_of_load_error hpath hl] at h
    cases h
  | ok loaded =>
    rw [(start_eq (startingRecord_of_load hpath hl shared.record)).1] at h
    refine ⟨loaded, loadedRecord_of_load hpath hl, ?_⟩
    rw [eq_of_verdict_eq_ok h]
    exact identity_settled o loaded

/-- In either order each side answers as a start alone does, on some record that it finds. -/
theorem answer_serial (files : Files) (o : Side → Options) (leader side : Side)
    (shared : SharedRecord) : ∃ found,
      (serial files o leader shared).answer side = (start files (o side) found).result := by
  rcases Side.eq_or_eq_other side leader with rfl | rfl
  · exact ⟨shared, Outcome.answer_of_self ..⟩
  · exact ⟨(start files (o leader) shared).shared, Outcome.answer_of_other ..⟩

/-- In either order the answer has the identity that its file gives. -/
theorem identityFrom_of_serial {files : Files} {o : Side → Options} {leader side : Side}
    {shared : SharedRecord} {record : Settings} (hc : (o side).config ≠ none)
    (h : (serial files o leader shared).answer side = .ok record) :
    IdentityFrom files (o side) record := by
  obtain ⟨found, hfound⟩ := answer_serial files o leader side shared
  rw [hfound] at h
  exact identityFrom_of_start hc h

/-- Two starts that settle on one record answer with its identity, both. -/
theorem identity_of_settledBoth {o : Side → Options} {leader side : Side} {base record : Settings}
    (h : (settledBoth o leader base).answer side = .ok record) :
    record.id = base.id ∧ record.secret = base.secret := by
  obtain ⟨hid, hsecret⟩ := identity_settled (o leader) base
  rcases Side.eq_or_eq_other side leader with rfl | rfl
  · rw [settledBoth, Outcome.answer_of_self] at h
    rw [eq_of_verdict_eq_ok h]
    exact ⟨hid, hsecret⟩
  · rw [settledBoth, Outcome.answer_of_other] at h
    rw [eq_of_verdict_eq_ok h]
    obtain ⟨hid', hsecret'⟩ := identity_settled (o leader.other) (settled (o leader) base)
    exact ⟨hid'.trans hid, hsecret'.trans hsecret⟩

/-! ## Two starts in any interleaving -/

/-- Where no side takes the lock while the other one has put its record in place and not settled,
the outcomes of two starts are those of the two orders. Over all schedules they are these and the
ones in which both settle on one loaded record. A start that is given a file and succeeds answers
with the identity in one of the files, and where the lock is not taken in between, in its own. -/
theorem outcome_of_interleaving (files : Files) (o : Side → Options) (shared : SharedRecord) :
    (∀ e, (∃ schedule, (Race.begin shared).Undivided files o schedule ∧
        ((Race.begin shared).run files o schedule).EndsWith e) ↔
      ∃ leader, e = serial files o leader shared) ∧
    (∀ e, (∃ schedule, ((Race.begin shared).run files o schedule).EndsWith e) ↔
      (∃ leader, e = serial files o leader shared) ∨ SettledOnOne files o e) ∧
    ∀ schedule e side record, ((Race.begin shared).run files o schedule).EndsWith e →
      (o side).config ≠ none → e.answer side = .ok record →
      (∃ owner, IdentityFrom files (o owner) record) ∧
        ((Race.begin shared).Undivided files o schedule → IdentityFrom files (o side) record) := by
  have hsound : ∀ side, ((Race.begin shared).phase side).Sound files (o side) := fun _ => trivial
  have hserial : ∀ leader, ((Race.begin shared).run files o (Race.inTurn leader)).EndsWith
      (serial files o leader shared) :=
    Race.endsWith_inTurn (Race.begin shared)
  refine ⟨?_, ?_, ?_⟩
  · intro e
    constructor
    · rintro ⟨schedule, hundivided, hends⟩
      exact (Race.outcome_of_undivided_run hundivided hends).1
    · rintro ⟨leader, rfl⟩
      exact ⟨Race.inTurn leader, Race.undivided_inTurn shared leader, hserial leader⟩
  · intro e
    constructor
    · rintro ⟨schedule, hends⟩
      exact Race.outcome_of_run hsound hends
    · rintro (⟨leader, rfl⟩ | ⟨heffect, leader, owner, record, hrecord, rfl⟩)
      · exact ⟨Race.inTurn leader, hserial leader⟩
      · exact Race.exists_run_settledBoth heffect hrecord leader shared
  · intro schedule e side record hends hc hanswer
    constructor
    · rcases Race.outcome_of_run hsound hends with
        ⟨leader, rfl⟩ | ⟨-, leader, owner, loaded, hloaded, rfl⟩
      · exact ⟨side, identityFrom_of_serial hc hanswer⟩
      · exact ⟨owner, loaded, hloaded, identity_of_settledBoth hanswer⟩
    · intro hundivided
      obtain ⟨leader, rfl⟩ := (Race.outcome_of_undivided_run hundivided hends).1
      exact identityFrom_of_serial hc hanswer

/-- The record in the file of each side. -/
def ownRecord : Side → Settings
  | .first => { id := "a", secret := "sa" }
  | .second => { id := "b", secret := "sb" }

def ownPath : Side → String
  | .first => "a.json"
  | .second => "b.json"

/-- Each side asks for a file of its own. -/
def ownFile (side : Side) : Options where
  config := some (ownPath side)

def twoFiles : Files :=
  Settings.holding fun path => if path = ownPath .first then ownRecord .first else ownRecord .second

theorem load_ownPath (side : Side) :
    Settings.load twoFiles (ownPath side) = .ok (ownRecord side) := by
  rw [twoFiles, Settings.load_holding]
  · cases side with
    | first => rw [if_pos rfl]
    | second => rw [if_neg (by decide)]
  · cases side <;> decide

/-- Each side can settle on the record of either file. -/
theorem verdict_ownFile (reader owner : Side) :
    verdict (settled (ownFile reader) (ownRecord owner)) =
      .ok (settled (ownFile reader) (ownRecord owner)) := by
  cases reader <;> cases owner <;> rfl

/-- One after the other, two starts answer with the identities in their own files. -/
theorem identityFrom_twoFiles :
    ∃ a b, (serial twoFiles ownFile .first {}).answer .first = .ok a ∧
      (serial twoFiles ownFile .first {}).answer .second = .ok b ∧
      IdentityFrom twoFiles (ownFile .first) a ∧ IdentityFrom twoFiles (ownFile .second) b := by
  obtain ⟨-, -, hidentity⟩ := outcome_of_interleaving twoFiles ownFile {}
  have hends := @Race.endsWith_inTurn twoFiles ownFile (Race.begin {}) .first
  rw [Race.inOrder_begin] at hends
  have hundivided := @Race.undivided_inTurn twoFiles ownFile {} .first
  have hanswer : ∀ side, (serial twoFiles ownFile .first {}).answer side =
      .ok (settled (ownFile side) (ownRecord side)) := by
    intro side
    obtain ⟨found, hfound⟩ := answer_serial twoFiles ownFile .first side {}
    have hbase : startingRecord twoFiles (ownFile side) found.record = .ok (ownRecord side) :=
      startingRecord_of_load rfl (load_ownPath side) found.record
    rw [hfound, (start_eq hbase).1]
    exact verdict_ownFile side side
  refine ⟨_, _, hanswer .first, hanswer .second, ?_, ?_⟩
  · exact (hidentity _ _ .first _ hends nofun (hanswer .first)).2 hundivided
  · exact (hidentity _ _ .second _ hends nofun (hanswer .second)).2 hundivided

/-- Both files are put in place before either side settles. The first side then answers with the
identity in the second file, and it does so in neither order. -/
theorem interleaving_in_no_order :
    ∃ e, ((Race.begin {}).run twoFiles ownFile
        [.first, .first, .second, .second, .first, .second]).EndsWith e ∧
      (∀ leader, e ≠ serial twoFiles ownFile leader {}) ∧
      ∃ record, e.answer .first = .ok record ∧ record.id = "b" ∧ record.secret = "sb" := by
  have hloaded : ∀ side, loadedRecord twoFiles (ownFile side) = some (ownRecord side) :=
    fun side => loadedRecord_of_load rfl (load_ownPath side)
  obtain ⟨hfirst, hwaiting, -⟩ :=
    @Race.run_two twoFiles ownFile (Race.begin {}) .first _ rfl (hloaded .first)
  obtain ⟨hsecond, hkept, hrecord⟩ :=
    @Race.run_two twoFiles ownFile _ .second _ hwaiting (hloaded .second)
  have hready : ∀ side, ∃ seeded, (((Race.begin {}).run twoFiles ownFile [.first, .first]).run
      twoFiles ownFile [.second, .second]).phase side = .settling seeded := by
    intro side
    cases side with
    | first => exact ⟨true, hkept.trans hfirst⟩
    | second => exact ⟨true, hsecond⟩
  have hends := @Race.endsWith_of_settling twoFiles ownFile _ hready .first
  rw [hrecord, ← Race.run_append, ← Race.run_append] at hends
  have hanswer : (settledBoth ownFile .first (ownRecord .second)).answer .first =
      .ok (settled (ownFile .first) (ownRecord .second)) := by
    rw [settledBoth, Outcome.answer_of_self, verdict_ownFile]
  obtain ⟨hid, hsecret⟩ := identity_of_settledBoth hanswer
  refine ⟨_, hends, ?_, _, hanswer, hid, hsecret⟩
  intro leader horder
  rw [horder] at hanswer
  have hconfig : (ownFile .first).config ≠ none := Option.some_ne_none _
  obtain ⟨own, hown, hidentity, -⟩ := identityFrom_of_serial hconfig hanswer
  rw [hloaded] at hown
  cases hown
  rw [hid] at hidentity
  exact absurd hidentity (by decide)

end BrokerAgent.Startup
