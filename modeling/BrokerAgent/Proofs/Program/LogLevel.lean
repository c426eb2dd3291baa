import BrokerAgent.Program
import BrokerAgent.Proofs.Log
import BrokerAgent.Proofs.Options.Level
import BrokerAgent.Proofs.Startup.Events

/-!
# What the log level is for

The level that is asked for decides which events are shown and nothing else. The events themselves
are fixed by the file and the other options: up to three on the way, and one that tells how the run
ended (`events_of_load_error`, `events_of_load_ok`). So two runs at two levels end alike and print
alike, and the quieter log shows those events of the other that its level lets through. The main
result is `level_only_filters`.
-/

namespace BrokerAgent.Program

open Startup

/-! ## The events of a run -/

/-- The event that ends a run. -/
def closing : Except Failure Settings → Event
  | .ok record => .ready record.protocols record.addresses
  | .error failure => .failed failure.message

/-- A run whose file does not load reports nothing but that. -/
theorem events_of_load_error {files : Files} {o : Options} {cause : Refusal}
    (h : Settings.loadIfNamed files o.config = .error cause) :
    events files o = [closing (start files o {}).result] := by
  rw [← startingRecord_empty] at h
  obtain ⟨path, hc, hl⟩ := load_error_of_startingRecord h
  rw [events, start_of_load_error hc hl]
  rfl

/-- The events of a run whose file is loaded, in their order. -/
theorem events_of_load_ok {files : Files} {o : Options} {loaded : Settings}
    (h : Settings.loadIfNamed files o.config = .ok loaded) :
    events files o =
      o.config.toList.map .fileLoaded ++ [.recordCreated] ++
        (if o.addresses = [] ∧ loaded.addresses = [] then [.fallbackUsed] else []) ++
        [closing (start files o {}).result] := by
  rw [← startingRecord_empty] at h
  have hevents : (start files o {}).events = _ := events_start h
  rw [fallback_eq] at hevents
  dsimp only [events]
  rw [hevents]
  cases (start files o {}).result with
  | error failure =>
    rw [confirmation, List.append_nil]
    rfl
  | ok record => rfl

/-- The event that ends a run is the last one in any case. -/
theorem exists_events_eq (files : Files) (o : Options) :
    ∃ earlier, events files o = earlier ++ [closing (start files o {}).result] := by
  cases h : Settings.loadIfNamed files o.config with
  | error cause => exact ⟨[], events_of_load_error h⟩
  | ok loaded => exact ⟨_, events_of_load_ok h⟩

/-! ## What a run shows -/

/-- The events that a run shows. -/
def shown (files : Files) (o : Options) : List Event :=
  o.level.filter (events files o)

/-- The record that a run prints behind them, if it is asked for and there is one. -/
def document (files : Files) (o : Options) : String :=
  match (start files o {}).result with
  | .error _ => ""
  | .ok record => printed o record

/-- How a run ends depends on the result of the start. -/
theorem exit_runWith (files : Files) (o : Options) :
    (runWith files o).exit =
      match (start files o {}).result with
      | .error _ => 1
      | .ok _ => 0 := by
  dsimp only [runWith]
  cases (start files o {}).result <;> rfl

theorem errors_runWith (files : Files) (o : Options) :
    (runWith files o).errors =
      match (start files o {}).result with
      | .error failure => report failure
      | .ok _ => "" := by
  dsimp only [runWith]
  cases (start files o {}).result <;> rfl

/-- Its output is the shown events and the document. -/
theorem output_runWith (files : Files) (o : Options) :
    (runWith files o).output =
      String.join ((shown files o).map Event.line) ++ document files o := by
  dsimp only [runWith, document]
  cases (start files o {}).result with
  | error failure => exact String.append_empty.symm
  | ok record => rfl

/-- A failure is shown last, and at every level. -/
theorem getLast?_shown {files : Files} {o : Options} {failure : Failure}
    (h : (start files o {}).result = .error failure) :
    (shown files o).getLast? = some (.failed failure.message) := by
  obtain ⟨earlier, hevents⟩ := exists_events_eq files o
  have hfilter : ∀ last, o.level.filter (earlier ++ [last]) =
      o.level.filter earlier ++ o.level.filter [last] := fun _ => List.filter_append _ _
  rw [shown, hevents, h, hfilter, closing, Level.filter_failed, List.getLast?_concat]

/-- The event that ends a run tells how it ends. -/
theorem closing_tells_exit (files : Files) (o : Options) :
    ((runWith files o).exit = 0 ∨ (runWith files o).exit = 1) ∧
      ((runWith files o).exit = 0 ↔ ∃ record, (start files o {}).result = .ok record ∧
        closing (start files o {}).result = .ready record.protocols record.addresses) ∧
      ((runWith files o).exit = 1 ↔ ∃ failure, (start files o {}).result = .error failure ∧
        closing (start files o {}).result = .failed failure.message) ∧
      ((runWith files o).exit = 1 →
        (shown files o).getLast? = some (closing (start files o {}).result)) := by
  rw [exit_runWith]
  cases hresult : (start files o {}).result with
  | error failure =>
    exact ⟨.inr rfl, by simp, by simp [closing], fun _ => getLast?_shown hresult⟩
  | ok record => exact ⟨.inl rfl, by simp [closing], by simp, by simp⟩

/-! ## Two levels -/

/-- Another level changes neither how a run ends nor what it prints in the end. -/
theorem runWith_level (files : Files) (o : Options) (level : Level) :
    (runWith files { o with level := level }).exit = (runWith files o).exit ∧
      (runWith files { o with level := level }).errors = (runWith files o).errors ∧
      document files { o with level := level } = document files o := by
  rw [exit_runWith, exit_runWith, errors_runWith, errors_runWith]
  exact ⟨rfl, rfl, rfl⟩

/-- A more verbose level shows the same events and others. -/
theorem shown_eq_filter (files : Files) {o : Options} {verbose : Level}
    (h : o.level.rank ≤ verbose.rank) :
    shown files o = o.level.filter (shown files { o with level := verbose }) := by
  have hevents : events files { o with level := verbose } = events files o := rfl
  rw [shown, shown, hevents]
  exact (Level.filter_filter h _).symm

/-- The log level only filters. A line that is accepted with one level in front of it is accepted
with any other. The two runs end in the same way, with the same report and with the same record
printed behind their logs, and the quieter log shows those events of the other that its level lets
through, in their order. At the most verbose level the log shows everything: the file, if there is
one; once the making of the shared record; the fallback, if there are no addresses after the
overrides; and one event that confirms the record or tells the failure, as the run succeeds or
fails. If the file does not load, that last event is the only one. A failure is shown last at every
level. -/
theorem level_only_filters (arguments : List String) (env : Environment) (files : Files) :
    (∀ quiet verbose : Level, quiet.rank ≤ verbose.rank →
      ∀ text text' : String, Level.ofText? text = some quiet → Level.ofText? text' = some verbose →
        ∀ o, Options.ofArguments (("--log-level=" ++ text) :: arguments) env = .ok o →
          let o' := { o with level := verbose }
          o.level = quiet ∧
          Options.ofArguments (("--log-level=" ++ text') :: arguments) env = .ok o' ∧
          ∃ outcome outcome',
            run (("--log-level=" ++ text) :: arguments) env files = .ok outcome ∧
            run (("--log-level=" ++ text') :: arguments) env files = .ok outcome' ∧
            outcome.exit = outcome'.exit ∧ outcome.errors = outcome'.errors ∧
            outcome.output =
              String.join ((shown files o).map Event.line) ++ document files o ∧
            outcome'.output =
              String.join ((shown files o').map Event.line) ++ document files o' ∧
            document files o = document files o' ∧
            shown files o = quiet.filter (shown files o')) ∧
    ∀ o, Options.ofArguments arguments env = .ok o →
      ∃ outcome last,
        run arguments env files = .ok outcome ∧
        outcome.output = String.join ((shown files o).map Event.line) ++ document files o ∧
        (outcome.exit = 0 ∨ outcome.exit = 1) ∧
        (outcome.exit = 0 ↔ ∃ record, (start files o {}).result = .ok record ∧
          last = .ready record.protocols record.addresses) ∧
        (outcome.exit = 1 ↔ ∃ failure, (start files o {}).result = .error failure ∧
          last = .failed failure.message) ∧
        (outcome.exit = 1 → (shown files o).getLast? = some last) ∧
        (o.level = .trace →
          (∀ cause, Settings.loadIfNamed files o.config = .error cause →
            shown files o = [last]) ∧
          ∀ loaded, Settings.loadIfNamed files o.config = .ok loaded →
            shown files o =
              o.config.toList.map .fileLoaded ++ [.recordCreated] ++
                (if o.addresses = [] ∧ loaded.addresses = [] then [.fallbackUsed] else []) ++
                [last]) := by
  have hrun : ∀ {arguments o}, Options.ofArguments arguments env = .ok o →
      run arguments env files = .ok (runWith files o) := by
    intro arguments o ho
    rw [run, ho]
    rfl
  constructor
  · intro quiet verbose hrank text text' htext htext' o ho
    obtain rfl := Options.level_of_ofArguments htext ho
    have ho' := Options.ofArguments_level htext htext' arguments env
    rw [ho] at ho'
    obtain ⟨hexit, herrors, hdocument⟩ := runWith_level files o verbose
    exact ⟨rfl, ho', _, _, hrun ho, hrun ho', hexit.symm, herrors.symm, output_runWith _ _,
      output_runWith _ _, hdocument.symm, shown_eq_filter files hrank⟩
  · intro o ho
    obtain ⟨hends, hzero, hone, hlast⟩ := closing_tells_exit files o
    refine ⟨_, _, hrun ho, output_runWith _ _, hends, hzero, hone, hlast, fun hlevel => ?_⟩
    have hshown : shown files o = events files o := by rw [shown, hlevel, Level.filter_trace]
    rw [hshown]
    exact ⟨fun _ => events_of_load_error, fun _ => events_of_load_ok⟩

/-- A file that names nothing but its agent, wherever it is. -/
def namedAgent : Files :=
  fun _ => .ok (Utf8.encode "\x7b\"id\":\"device\"\x7d".toList)

theorem load_namedAgent :
    Settings.loadIfNamed namedAgent (some "a.json") = .ok { id := "device" } := by
  decide +kernel

/-- Two logs of such a file, one of which shows nothing and the other everything. What the variable
for the level says, which is none, does not matter. -/
theorem level_only_filters_named :
    let arguments := ["--config=a.json", "--protocol", "tcp", "--print"]
    let env : Environment := { level := some "loud" }
    ∃ outcome outcome' printed,
      run ("--log-level=Warn" :: arguments) env namedAgent = .ok outcome ∧
      run ("--log-level=5" :: arguments) env namedAgent = .ok outcome' ∧
      outcome.exit = outcome'.exit ∧ outcome.errors = outcome'.errors ∧
      outcome.output = printed ∧
      outcome'.output =
        String.join ([Event.fileLoaded "a.json", .recordCreated, .fallbackUsed,
          .ready ["tcp"] ["broker.example.com:9443"]].map Event.line) ++ printed := by
  intro arguments env
  let o : Options :=
    { config := some "a.json", protocols := ["tcp"], level := .warn, print := true }
  let o' : Options := { o with level := .trace }
  have ho : Options.ofArguments ("--log-level=Warn" :: arguments) env = .ok o := by decide +kernel
  obtain ⟨-, ho', outcome, outcome', hrun, hrun', hexit, herrors, houtput, houtput', hdocument,
      hshown⟩ :=
    (level_only_filters arguments env namedAgent).1 .warn .trace (by decide) "Warn" "5" (by decide)
      (by decide) o ho
  obtain ⟨outcome'', last, hrun'', -, hends, hzero, hone, -, htrace⟩ :=
    (level_only_filters ("--log-level=5" :: arguments) env namedAgent).2 o' ho'
  have hresult : (start namedAgent o' {}).result =
      .ok { protocols := ["tcp"], addresses := ["broker.example.com:9443"], id := "device" } := by
    have hload : Settings.load namedAgent "a.json" = .ok { id := "device" } := load_namedAgent
    simp only [start, load, o', o, hload]
    rfl
  have hlast : last = .ready ["tcp"] ["broker.example.com:9443"] := by
    rcases hends with h | h
    · obtain ⟨record, hrecord, hlast⟩ := hzero.1 h
      obtain rfl := Except.ok.inj (hresult.symm.trans hrecord)
      exact hlast
    · obtain ⟨failure, hfailure, -⟩ := hone.1 h
      cases hresult.symm.trans hfailure
  have hall := (htrace rfl).2 _ load_namedAgent
  rw [hlast] at hall
  refine ⟨outcome, outcome', document namedAgent o, hrun, hrun', hexit, herrors, ?_, ?_⟩
  · rw [houtput, hshown, hall]
    exact String.empty_append
  · rw [houtput', hall, hdocument]
    rfl

end BrokerAgent.Program
