import BrokerAgent.Proofs.Settings.FirstBroken
import BrokerAgent.Proofs.Startup.Outcome

/-!
# What a failed start says of its cause

A start fails at its file or at a rule (`result_eq_error_iff`). Either way its messages begin with
what was being done and go on with what was refused. A refusal of the first kind took over a text
from the reading of the file, and that text ends the chain; a refusal of the second kind did not.
So there are two shapes of chains, and in neither is anything of the cause lost or changed. The main
result is `failed_start_tells_its_cause`.
-/

namespace BrokerAgent

/-! ## Two kinds of refusals -/

/-- A refusal that comes from the reading of a file: what its message begins with, and the text that
it took over. -/
inductive Refusal.FromFile : Refusal → String → String → Prop
  | unreadable (fault : FileFault) : FromFile (.unreadable fault) "I/O error: " fault.text
  | json (report : Json.Report) : FromFile (.json report) "JSON parse error: " report.text
  | toml (report : Toml.Report) : FromFile (.toml report) "TOML parse error: " report.text

namespace Refusal.FromFile

variable {cause : Refusal} {kind inner : String}

theorem message_eq (h : cause.FromFile kind inner) : cause.message = kind ++ inner := by
  cases h <;> rfl

theorem inner?_eq (h : cause.FromFile kind inner) : cause.inner? = some inner := by
  cases h <;> rfl

end Refusal.FromFile

namespace Settings

/-- A file is refused because it cannot be read or because its text gives no record, and for no
other reason. -/
theorem fromFile_of_load_error {files : Files} {path : String} {cause : Refusal}
    (h : load files path = .error cause) : ∃ kind inner, cause.FromFile kind inner := by
  unfold load at h
  split at h
  · obtain rfl := Except.error.inj h
    exact ⟨_, _, .unreadable _⟩
  unfold ofBytes at h
  split at h
  · obtain rfl := Except.error.inj h
    exact ⟨_, _, .unreadable .notText⟩
  split at h
  · obtain ⟨report, -, rfl⟩ := mapError_eq_error.1 h
    exact ⟨_, _, .json report⟩
  · obtain ⟨report, -, rfl⟩ := mapError_eq_error.1 h
    exact ⟨_, _, .toml report⟩

end Settings

namespace Startup

/-! ## Two shapes of chains -/

/-- A failed load is told in three steps. -/
theorem chain_loading {path kind inner : String} {cause : Refusal}
    (h : cause.FromFile kind inner) :
    (Failure.loading path cause).chain =
      ["loading " ++ Text.quote path, cause.message, inner] := by
  simp only [Failure.chain, Failure.headline, Failure.cause, h.inner?_eq, Option.toList_some]

/-- A rejection is told in two. -/
theorem chain_rejected {cause : Refusal} (h : cause.inner? = none) :
    (Failure.rejected cause).chain = ["agent config rejected", cause.message] := by
  simp only [Failure.chain, Failure.headline, Failure.cause, h, Option.toList_none]

/-! ## Failed starts -/

/-- A record is rejected for what its check says. -/
theorem verdict_eq_error_iff {record : Settings} {failure : Failure} :
    verdict record = .error failure ↔
      ∃ cause, record.check = .error cause ∧ failure = .rejected cause := by
  unfold verdict
  cases record.check with
  | error cause => simp [eq_comm]
  | ok _ => simp

variable {files : Files} {o : Options} {shared : SharedRecord}

/-- A start has a record to go on from exactly if its file, if it names one, loads. -/
theorem exists_startingRecord_iff {found : Settings} :
    (∃ base, startingRecord files o found = .ok base) ↔
      ∃ loaded, Settings.loadIfNamed files o.config = .ok loaded := by
  unfold startingRecord
  cases o.config with
  | none => simp [Settings.loadIfNamed]
  | some path => rfl

/-- A start fails with the refusal of its file, or with the refusal of the record that it leaves. -/
theorem result_eq_error_iff {failure : Failure} :
    (start files o shared).result = .error failure ↔
      (∃ path cause, o.config = some path ∧
        Settings.loadIfNamed files (some path) = .error cause ∧ failure = .loading path cause) ∨
      ∃ loaded cause, Settings.loadIfNamed files o.config = .ok loaded ∧
        (start files o shared).shared.record.check = .error cause ∧ failure = .rejected cause := by
  cases hs : startingRecord files o shared.record with
  | error refused =>
    obtain ⟨path, hc, hl⟩ := load_error_of_startingRecord hs
    have hresult : (start files o shared).result = .error (.loading path refused) := by
      rw [start_of_load_error hc hl]
    have hnamed : Settings.loadIfNamed files (some path) = .error refused := hl
    rw [hresult, hc]
    constructor
    · intro h
      exact .inl ⟨path, refused, rfl, hnamed, (Except.error.inj h).symm⟩
    · rintro (⟨path', cause, hpath, hload, rfl⟩ | ⟨loaded, cause, hload, -⟩)
      · obtain rfl := Option.some.inj hpath
        rw [Except.error.inj (hnamed.symm.trans hload)]
      · rw [hnamed] at hload
        cases hload
  | ok base =>
    obtain ⟨hresult, hshared⟩ := start_eq hs
    obtain ⟨loaded, hloaded⟩ := exists_startingRecord_iff.1 ⟨base, hs⟩
    rw [hresult, verdict_eq_error_iff, hshared, SharedRecord.record_put]
    constructor
    · rintro ⟨cause, hcheck, rfl⟩
      exact .inr ⟨loaded, cause, hloaded, hcheck, rfl⟩
    · rintro (⟨path, cause, hpath, hload, rfl⟩ | ⟨-, cause, -, hcheck, rfl⟩)
      · rw [hpath, hload] at hloaded
        cases hloaded
      · exact ⟨cause, hcheck, rfl⟩

/-- Whatever a start goes on from, it leaves the protocols of its options. -/
theorem protocols_start {loaded : Settings}
    (h : Settings.loadIfNamed files o.config = .ok loaded) :
    (start files o shared).shared.record.protocols = o.protocols := by
  obtain ⟨base, hs⟩ := exists_startingRecord_iff.2 ⟨loaded, h⟩
  rw [(start_eq hs).2, SharedRecord.record_put, settled_eq]

/-- The messages of a failed start are of one of two shapes. If the file that it names is refused
they are the headline with the path, the message of that very refusal, and the text that the refusal
took over; its message is that text behind the name of its kind. Otherwise the record that the start
leaves is refused, and they are a headline and the message of that very refusal. The message on one
line is all of them with colons between. And if the file does not stand in the way and a protocol is
unknown, the last message gives the first such protocol as it is, whatever else is wrong. -/
theorem failed_start_tells_its_cause (files : Files) (o : Options) (shared : SharedRecord) :
    (∀ failure, (start files o shared).result = .error failure →
      failure.message = ": ".intercalate failure.chain ∧
      ((∃ path cause kind inner, o.config = some path ∧
          Settings.loadIfNamed files (some path) = .error cause ∧
          cause.FromFile kind inner ∧ cause.message = kind ++ inner ∧
          failure.chain = ["loading " ++ Text.quote path, cause.message, inner]) ∨
        ∃ loaded cause, Settings.loadIfNamed files o.config = .ok loaded ∧
          (start files o shared).shared.record.check = .error cause ∧
          failure.chain = ["agent config rejected", cause.message])) ∧
    ∀ loaded q, Settings.loadIfNamed files o.config = .ok loaded →
      q ∈ o.protocols → q ∉ Transport.names →
        ∃ place p failure, Settings.FirstUnknown o.protocols place p ∧
          (start files o shared).result = .error failure ∧
          failure.chain.getLast? = some ("Invalid protocol: " ++ p) := by
  constructor
  · intro failure h
    refine ⟨rfl, ?_⟩
    rcases result_eq_error_iff.1 h with
      ⟨path, cause, hc, hl, rfl⟩ | ⟨loaded, cause, hl, hcheck, rfl⟩
    · obtain ⟨kind, inner, hfile⟩ := Settings.fromFile_of_load_error hl
      exact .inl ⟨path, cause, kind, inner, hc, hl, hfile, hfile.message_eq, chain_loading hfile⟩
    · have hown := Settings.inner?_of_check_error _ hcheck
      exact .inr ⟨loaded, cause, hl, hcheck, chain_rejected hown⟩
  · intro loaded q hl hq hunknown
    obtain ⟨place, p, hfirst⟩ := Settings.exists_firstUnknown hq hunknown
    have hleft : Settings.FirstUnknown (start files o shared).shared.record.protocols place p := by
      rwa [protocols_start hl]
    have hcheck := Settings.check_of_firstUnknown _ hleft
    refine ⟨place, p, .rejected (.invalidProtocol p), hfirst, ?_, rfl⟩
    exact result_eq_error_iff.2 (.inr ⟨loaded, _, hl, hcheck, rfl⟩)

/-- A file that ends too early, wherever it is. -/
def unclosedFile : Files := fun _ => .ok (Utf8.encode ['\x7b'])

theorem load_unclosedFile : Settings.loadIfNamed unclosedFile (some "it's\n\"it\".json") =
    .error (.json ⟨.endInObject, ⟨1, 1⟩⟩) := by
  with_unfolding_all rfl

/-- A file that ends too early, at a path that has to be quoted; and a protocol with signs that do
not print, behind a known one, before another unknown one, and beside an id that is too long. -/
theorem failed_start_tells_its_cause_quoted :
    let seeds : Options := { config := some "it's\n\"it\".json" }
    let overrides : Options := { protocols := ["udp", "a\n\x1b: b", "http"] }
    let long : Settings := { id := String.ofList (List.replicate 101 'x') }
    (∃ failure, (start unclosedFile seeds {}).result = .error failure ∧
      failure.chain =
        ["loading \"it's\\n\\\"it\\\".json\"",
          "JSON parse error: EOF while parsing an object at line 1 column 1",
          "EOF while parsing an object at line 1 column 1"]) ∧
    ∃ failure, (start unclosedFile overrides { record := long }).result = .error failure ∧
      failure.chain.getLast? = some "Invalid protocol: a\n\x1b: b" := by
  intro seeds overrides long
  constructor
  · have hfails : (start unclosedFile seeds {}).result = .error _ :=
      result_eq_error_iff.2 (.inl ⟨_, _, rfl, load_unclosedFile, rfl⟩)
    obtain ⟨htold, -⟩ := failed_start_tells_its_cause unclosedFile seeds {}
    refine ⟨_, hfails, ?_⟩
    rcases (htold _ hfails).2 with
      ⟨path, cause, kind, inner, hc, hl, hfile, -, hchain⟩ | ⟨loaded, cause, hl, -⟩
    · obtain rfl := Option.some.inj hc
      obtain rfl := Except.error.inj (load_unclosedFile.symm.trans hl)
      cases hfile
      rw [hchain]
      decide +kernel
    · cases load_unclosedFile.symm.trans hl
  · obtain ⟨-, hfirst⟩ := failed_start_tells_its_cause unclosedFile overrides { record := long }
    obtain ⟨place, p, failure, hp, hresult, hlast⟩ := hfirst {} "http" rfl (by decide) (by decide)
    have hfound := Settings.find?_eq_some_iff_firstUnknown.2 ⟨place, hp⟩
    obtain rfl : "a\n\x1b: b" = p := Option.some.inj hfound
    exact ⟨failure, hresult, hlast⟩

end Startup
end BrokerAgent
