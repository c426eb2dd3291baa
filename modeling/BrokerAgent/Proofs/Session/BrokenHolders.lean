import BrokerAgent.Proofs.Startup.Outcome
import BrokerAgent.Session

/-!
# Holders that break off

A holder of the lock that breaks off leaves its change and a mark. Nothing that a session does
looks at the mark, except to tell whether it is there: without its marks a session is one whose
holders all came to their end. `unmarked_answer` says so of one request, `unmarked_after` of many,
and `breakOff_transparent` of what the session answers on the way.
-/

namespace BrokerAgent

/-! ## The shared record without the mark -/

namespace SharedRecord

/-- The shared record as if no holder had ever broken off. -/
def unmarked (s : SharedRecord) : SharedRecord :=
  { s with marked := false }

variable (s : SharedRecord)

@[simp] theorem record_unmarked : s.unmarked.record = s.record := rfl

@[simp] theorem unmarked_create : s.create.unmarked = s.unmarked.create := rfl

@[simp] theorem unmarked_put (record : Settings) :
    (s.put record).unmarked = s.unmarked.put record := rfl

@[simp] theorem unmarked_update (change : Settings → Settings) :
    (s.update change).unmarked = s.unmarked.update change := by
  simp only [update, unmarked_put, look_eq_record, record_unmarked]

/-- A holder that changes nothing does no more than look. -/
@[simp] theorem update_id : s.update id = s.create := by
  rw [update, look_eq_record]
  rfl

/-- Without the mark a holder that broke off is one that has made its change and gone on. -/
@[simp] theorem unmarked_breakOff (change : Settings → Settings) :
    (s.breakOff change).unmarked = s.unmarked.update change := by
  rw [← unmarked_update]
  rfl

end SharedRecord

namespace Startup

/-- The mark has no part in a start: not in what it gives, not in what it reports, and not in the
record it leaves. -/
theorem start_unmarked (files : Files) (o : Options) (shared : SharedRecord) :
    start files o shared.unmarked =
      { start files o shared with shared := (start files o shared).shared.unmarked } := by
  have hsettle : ∀ found : SharedRecord, settle o found.unmarked =
      { settle o found with shared := (settle o found).shared.unmarked } := by
    intro found
    simp only [settle, SharedRecord.look_eq_record, SharedRecord.record_unmarked]
    cases (settled o found.record).check with
    | error cause => rfl
    | ok _ => rfl
  unfold start
  cases load files o with
  | error failure => rfl
  | ok loaded =>
    cases loaded with
    | none => simp only [seed, hsettle]
    | some record =>
      simp only [seed, ← SharedRecord.unmarked_put, hsettle]
      rfl

/-- A start neither leaves a mark nor clears one. -/
theorem marked_start (files : Files) (o : Options) (shared : SharedRecord) :
    (start files o shared).shared.marked = shared.marked := by
  cases hs : startingRecord files o shared.record with
  | error cause =>
    obtain ⟨path, hc, hl⟩ := load_error_of_startingRecord hs
    rw [start_of_load_error hc hl]
  | ok base =>
    rw [(start_eq hs).2]
    exact SharedRecord.marked_put _ _

end Startup

/-! ## One request -/

namespace Request

/-- The request in which a holder that would break off comes to its end instead, with the same
change made. -/
def calm : Request → Request
  | breakOff none => hold
  | breakOff (some e) => edit e
  | request => request

/-- Whether a holder breaks off. -/
def breaksOff : Request → Bool
  | breakOff _ => true
  | _ => false

/-- Whether a request is for the record or the files. It is not if a holder breaks off and answers
nothing, or if the question is whether one has. -/
def ordinary : Request → Bool
  | breakOff _ | isMarked => false
  | _ => true

@[simp] theorem calm_calm (request : Request) : request.calm.calm = request.calm := by
  cases request with
  | breakOff e => cases e <;> rfl
  | _ => rfl

@[simp] theorem breaksOff_calm (request : Request) : request.calm.breaksOff = false := by
  cases request with
  | breakOff e => cases e <;> rfl
  | _ => rfl

/-- An ordinary request is calm. -/
theorem calm_of_ordinary {request : Request} (h : request.ordinary = true) :
    request.calm = request := by
  cases request with
  | breakOff e => cases h
  | _ => rfl

end Request

namespace Session

/-- The session as if no holder had ever broken off. -/
def unmarked (s : Session) : Session :=
  { s with shared := s.shared.unmarked }

/-- Ordinary requests are answered without regard to the mark, and leave it as it is. -/
theorem answer_unmarked (s : Session) {request : Request} (h : request.ordinary = true) :
    s.unmarked.answer request = ((s.answer request).1, (s.answer request).2.unmarked) := by
  cases request with
  | breakOff e => cases h
  | isMarked => cases h
  | transports =>
    simp only [answer, unmarked, SharedRecord.look_eq_record, SharedRecord.record_unmarked]
    cases s.shared.record.chosenTransports with
    | error cause => rfl
    | ok list => rfl
  | load path =>
    simp only [answer, unmarked]
    cases Settings.loadIfNamed s.files.read path with
    | error cause => rfl
    | ok record => rfl
  | loadAndPut path =>
    simp only [answer, unmarked]
    cases Settings.loadIfNamed s.files.read path with
    | error cause => rfl
    | ok record => rfl
  | start arguments env =>
    simp only [answer, unmarked]
    cases Options.ofArguments arguments env with
    | error usage => rfl
    | ok o =>
      simp only [Startup.start_unmarked]
      cases (Startup.start s.files.read o s.shared).result with
      | error failure => rfl
      | ok record => rfl
  | _ => simp [answer, unmarked, looked, changed]

/-- Sessions that differ by the mark alone answer ordinary requests alike. -/
theorem answer_eq_of_unmarked_eq {s t : Session} (hst : s.unmarked = t.unmarked)
    {request : Request} (h : request.ordinary = true) :
    (s.answer request).1 = (t.answer request).1 := by
  have hs := congrArg Prod.fst (answer_unmarked s h)
  have ht := congrArg Prod.fst (answer_unmarked t h)
  rw [hst] at hs
  exact hs.symm.trans ht

/-- A holder that breaks off leaves what it leaves when it comes to its end, but for the mark. -/
theorem unmarked_answer_breakOff (s : Session) (e : Option Edit) :
    (s.answer (.breakOff e)).2.unmarked =
      (s.unmarked.answer (Request.breakOff e).calm).2 := by
  cases e with
  | none =>
    simp only [answer, unmarked, SharedRecord.unmarked_breakOff, SharedRecord.update_id]
    rfl
  | some e =>
    simp only [answer, unmarked, SharedRecord.unmarked_breakOff]
    rfl

/-- Without the mark a session goes on as it does with all holders calm. -/
theorem unmarked_answer (s : Session) (request : Request) :
    (s.answer request).2.unmarked = (s.unmarked.answer request.calm).2 := by
  by_cases h : request.ordinary = true
  · rw [Request.calm_of_ordinary h, answer_unmarked s h]
  · cases request with
    | breakOff e => exact unmarked_answer_breakOff s e
    | isMarked => rfl
    | _ => exact absurd rfl h

/-- The mark is set by a holder that breaks off, and nothing clears it. -/
theorem marked_answer (s : Session) (request : Request) :
    (s.answer request).2.shared.marked = (s.shared.marked || request.breaksOff) := by
  have hkept : s.shared.marked = (s.shared.marked || false) := (Bool.or_false _).symm
  cases request with
  | breakOff e => exact (Bool.or_true _).symm
  | transports =>
    simp only [answer]
    cases s.shared.look.chosenTransports with
    | error cause => exact hkept
    | ok list => exact hkept
  | load path =>
    simp only [answer]
    cases Settings.loadIfNamed s.files.read path with
    | error cause => exact hkept
    | ok record => exact hkept
  | loadAndPut path =>
    simp only [answer]
    cases Settings.loadIfNamed s.files.read path with
    | error cause => exact hkept
    | ok record => exact hkept
  | start arguments env =>
    simp only [answer]
    cases Options.ofArguments arguments env with
    | error usage => exact hkept
    | ok o =>
      have hmarked := (Startup.marked_start s.files.read o s.shared).trans hkept
      dsimp only
      cases (Startup.start s.files.read o s.shared).result with
      | error failure => exact hmarked
      | ok record => exact hmarked
  | _ => exact hkept

/-! ## Many requests -/

/-- The session after requests, the first of them first. -/
def after (s : Session) (requests : List Request) : Session :=
  requests.foldl (fun s request => (s.answer request).2) s

/-- Each answer is the one that the session gives after the earlier requests. -/
theorem getElem?_answers (s : Session) (requests : List Request) (i : Nat) :
    (s.answers requests)[i]? = requests[i]?.map fun request =>
      (((s.after (requests.take i)).answer request).1,
        (s.after (requests.take (i + 1))).shared.record) := by
  induction requests generalizing s i with
  | nil => rfl
  | cons request requests ih =>
    cases i with
    | zero => rfl
    | succ i => exact ih (s.answer request).2 i

/-- Without the mark a session goes through requests as it does with all holders calm. -/
theorem unmarked_after (s : Session) (requests : List Request) :
    (s.after requests).unmarked = s.unmarked.after (requests.map Request.calm) := by
  induction requests generalizing s with
  | nil => rfl
  | cons request requests ih =>
    show ((s.answer request).2.after requests).unmarked = _
    rw [ih, unmarked_answer]
    rfl

/-- With its holders calm a session gets to where it gets with holders that break off, but for the
mark. -/
theorem unmarked_after_calm (s : Session) (requests : List Request) :
    (s.after (requests.map Request.calm)).unmarked = (s.after requests).unmarked := by
  rw [unmarked_after, unmarked_after, List.map_map]
  have hcalm : Request.calm ∘ Request.calm = Request.calm := funext Request.calm_calm
  rw [hcalm]

/-- The mark is there if it was there before or if a holder has broken off since. -/
theorem marked_after (s : Session) (requests : List Request) :
    (s.after requests).shared.marked = (s.shared.marked || requests.any Request.breaksOff) := by
  induction requests generalizing s with
  | nil => exact (Bool.or_false _).symm
  | cons request requests ih =>
    show ((s.answer request).2.after requests).shared.marked = _
    rw [ih, marked_answer, List.any_cons, Bool.or_assoc]

/-- A session with holders that break off answers as one in which each of them makes its change
and comes to its end: every ordinary request is answered alike, and the shared record after each
request is the same. Only the mark differs. It is there from the first holder that breaks off on,
which is also what the question for it is answered, and nothing clears it. -/
theorem breakOff_transparent (s : Session) (requests : List Request) :
    (∀ (i : Nat) (request : Request), requests[i]? = some request →
      ∃ answer calmAnswer record,
        (s.answers requests)[i]? = some (answer, record) ∧
        (s.answers (requests.map Request.calm))[i]? = some (calmAnswer, record) ∧
        (request.ordinary = true → answer = calmAnswer) ∧
        (request = .isMarked →
          answer = .flag (s.shared.marked || (requests.take i).any Request.breaksOff))) ∧
    ∀ n : Nat,
      (s.after (requests.take n)).shared.marked =
        (s.shared.marked || (requests.take n).any Request.breaksOff) ∧
      (s.after ((requests.map Request.calm).take n)).shared.marked = s.shared.marked := by
  -- the calm session at every point
  have hsame : ∀ n : Nat, (s.after ((requests.map Request.calm).take n)).unmarked =
      (s.after (requests.take n)).unmarked := by
    intro n
    rw [← List.map_take]
    exact unmarked_after_calm s (requests.take n)
  refine ⟨?_, fun n => ⟨marked_after s (requests.take n), ?_⟩⟩
  · intro i request hi
    have hrecord : (s.after ((requests.map Request.calm).take (i + 1))).shared.record =
        (s.after (requests.take (i + 1))).shared.record :=
      congrArg (fun t => t.shared.record) (hsame (i + 1))
    refine ⟨((s.after (requests.take i)).answer request).1,
      ((s.after ((requests.map Request.calm).take i)).answer request.calm).1,
      (s.after (requests.take (i + 1))).shared.record, ?_, ?_, ?_, ?_⟩
    · rw [getElem?_answers, hi, Option.map_some]
    · rw [getElem?_answers, List.getElem?_map, hi, Option.map_some, Option.map_some, hrecord]
    · intro h
      rw [Request.calm_of_ordinary h]
      exact answer_eq_of_unmarked_eq (hsame i).symm h
    · rintro rfl
      exact congrArg Answer.flag (marked_after s (requests.take i))
  · rw [marked_after, ← List.map_take, List.any_map]
    have hcalm : Request.breaksOff ∘ Request.calm = fun _ => false :=
      funext Request.breaksOff_calm
    simp [hcalm]

/-- A holder that sets the id and breaks off, then a start, then a holder that breaks off without
a change, and the question for the mark. -/
def shaken : List Request :=
  [.breakOff (some (.id "device")), .start ["--protocol=tcp"] {}, .breakOff none, .isMarked]

theorem breakOff_transparent_shaken :
    (∃ answer record, (({} : Session).answers shaken)[1]? = some (answer, record) ∧
      (({} : Session).answers (shaken.map Request.calm))[1]? = some (answer, record)) ∧
    ∃ record, (({} : Session).answers shaken)[3]? = some (.flag true, record) := by
  constructor
  · obtain ⟨answer, calmAnswer, record, hanswer, hcalm, hsame, -⟩ :=
      (breakOff_transparent {} shaken).1 1 (.start ["--protocol=tcp"] {}) rfl
    refine ⟨answer, record, hanswer, ?_⟩
    rw [hcalm, hsame rfl]
  · obtain ⟨answer, -, record, hanswer, -, -, hmark⟩ :=
      (breakOff_transparent {} shaken).1 3 .isMarked rfl
    refine ⟨record, ?_⟩
    rw [hanswer, hmark rfl]
    rfl

end Session
end BrokerAgent
