import BrokerAgent.Proofs.Json.Mistyped
import BrokerAgent.Proofs.Program.Printing
import BrokerAgent.Proofs.Text.Quoted
import BrokerAgent.Proofs.Toml.Mistyped

/-!
# What a run tells about a secret that is no text

A file that gives no record ends a run with a line in the log and a report. What the reader of the
file said is there to be read in both, since all that is done to it is that a margin is put between
lines (`report_loading_eq_iff`) and that control characters are spelled out (`log_loading_eq_iff`).
So a secret without quotes is shown by what the reader says about it (`refused_secret_is_shown`).
-/

namespace BrokerAgent.Program

open Startup

/-! ## Reports tell texts apart -/

/-- A margin behind line feeds can be taken away again. -/
theorem unambiguous_margin (margin : List Char) :
    Text.Unambiguous fun c => if c = '\n' then '\n' :: margin else [c] := by
  intro a b rest rest' hab
  dsimp only at hab
  split at hab <;> split at hab
  · exact ⟨by rw [‹a = '\n'›, ‹b = '\n'›], List.append_cancel_left hab⟩
  · exact absurd (List.cons.inj hab).1.symm ‹b ≠ '\n'›
  · exact absurd (List.cons.inj hab).1 ‹a ≠ '\n'›
  · exact List.cons.inj hab

/-- A text is told by its lines with a margin between them. -/
theorem hang_injective {margin a b : String} (h : hang margin a = hang margin b) : a = b := by
  rw [hang, hang, String.ofList_inj] at h
  refine String.toList_inj.1 ((unambiguous_margin margin.toList).flatMap_injective (fun c => ?_) h)
  split <;> exact List.cons_ne_nil _ _

theorem hang_append (margin a b : String) :
    hang margin (a ++ b) = hang margin a ++ hang margin b := by
  rw [hang, String.toList_append, List.flatMap_append, String.ofList_append]
  rfl

/-- A text that stands twice among others is told by the whole. -/
theorem eq_of_twice {before between behind a b : List Char}
    (h : before ++ a ++ between ++ a ++ behind = before ++ b ++ between ++ b ++ behind) :
    a = b := by
  have hlength := congrArg List.length h
  simp only [List.length_append] at hlength
  simp only [List.append_assoc] at h
  exact (List.append_inj (List.append_cancel_left h) (by omega)).1

theorem eq_of_twice_string {before between behind a b : String}
    (h : before ++ a ++ between ++ a ++ behind = before ++ b ++ between ++ b ++ behind) :
    a = b := by
  have h := congrArg String.toList h
  simp only [String.toList_append] at h
  exact String.toList_inj.1 (eq_of_twice h)

/-- The causes of a failure, the first of which takes over the text of the second. -/
theorem causes_eq_iff {head a b : String} :
    causes [head ++ a, a] = causes [head ++ b, b] ↔ a = b := by
  constructor
  · intro h
    have hcauses : ∀ t, causes [head ++ t, t] =
        ("\nCaused by:\n" ++ ("    0: " ++ hang "       " head)) ++ hang "       " t ++
          ("\n" ++ "    1: ") ++ hang "       " t ++ "\n" := by
      intro t
      have hzero : numberedCause 0 (head ++ t) = "    0: " ++ hang "       " (head ++ t) ++ "\n" :=
        rfl
      have hone : numberedCause 1 t = "    1: " ++ hang "       " t ++ "\n" := rfl
      have hall : causes [head ++ t, t] =
          "\nCaused by:\n" ++ ("" ++ numberedCause 0 (head ++ t) ++ numberedCause 1 t) := rfl
      rw [hall, hzero, hone, hang_append]
      simp only [String.append_assoc, String.empty_append]
    rw [hcauses, hcauses] at h
    exact hang_injective (eq_of_twice_string h)
  · rintro rfl
    rfl

/-! ## What a run leaves of a refusal -/

/-- The message of a refusal is a text that it took over, behind a heading. -/
structure TakesOver (c : Refusal) (head t : String) : Prop where
  message : c.message = head ++ t
  inner : c.inner? = some t

/-- A run that loads no record logs the failure and reports it. -/
theorem runWith_of_load_error {files : Files} {o : Options} {path : String} {cause : Refusal}
    (hconfig : o.config = some path) (hload : Settings.load files path = .error cause) :
    runWith files o = ⟨1, o.level.log [.failed (Failure.loading path cause).message],
      report (.loading path cause)⟩ := by
  have hstart := start_of_load_error hconfig hload {}
  have hevents : events files o = [.failed (Failure.loading path cause).message] := by
    rw [events, hstart]
    rfl
  rw [runWith_of_error (congrArg Step.result hstart), hevents]

section

variable {path head t t₁ t₂ : String} {c c₁ c₂ : Refusal}

/-- The report has the text that was taken over twice, with its heading and without. -/
theorem TakesOver.report_eq (h : TakesOver c head t) : report (.loading path c) =
    "Error: " ++ ("loading " ++ Text.quote path) ++ "\n" ++ causes [head ++ t, t] := by
  rw [report, Failure.chain]
  simp only [Failure.cause, h.message, h.inner, Option.toList_some, List.tail_cons]
  rfl

/-- So has the message in the log. -/
theorem TakesOver.message_eq (h : TakesOver c head t) : (Failure.loading path c).message =
    "loading " ++ Text.quote path ++ ": " ++ (head ++ t) ++ ": " ++ t := by
  rw [Failure.message, Failure.chain]
  simp only [Failure.cause, h.message, h.inner, Option.toList_some]
  rfl

/-- Reports about one file show what was taken over. -/
theorem report_loading_eq_iff (h₁ : TakesOver c₁ head t₁) (h₂ : TakesOver c₂ head t₂) :
    report (.loading path c₁) = report (.loading path c₂) ↔ t₁ = t₂ := by
  rw [h₁.report_eq, h₂.report_eq, String.append_right_inj, causes_eq_iff]

/-- So does a log, but for control characters. -/
theorem log_loading_eq_iff (level : Level) (h₁ : TakesOver c₁ head t₁)
    (h₂ : TakesOver c₂ head t₂) :
    level.log [.failed (Failure.loading path c₁).message] =
        level.log [.failed (Failure.loading path c₂).message] ↔
      logged t₁.toList = logged t₂.toList := by
  have hparts : ∀ a b c d : String, logged (a ++ b ++ (c ++ d) ++ b ++ d).toList =
      logged (a.toList ++ b.toList ++ c.toList) ++ logged d.toList ++ logged b.toList ++
        logged d.toList ++ [] := by
    intro a b c d
    simp only [String.toList_append, logged_append, List.append_assoc, List.append_nil]
  rw [log_failed_eq_iff, h₁.message_eq, h₂.message_eq, hparts, hparts]
  exact ⟨eq_of_twice, fun h => by rw [h]⟩

end

/-! ## Two runs -/

/-- Two files that differ in nothing but how the value of their secret is written, and that are both
refused for the shape of a value: the two refusals, and when the two values leave no trace. -/
inductive Mistyped (path : String) (files₁ files₂ : Files) : Refusal → Refusal → Prop → Prop
  | json {before after : List (List Char × Json.Value)} {pre post s₁ s₂ : List Char}
      {v₁ v₂ : Json.Value} {r₁ r₂ : Json.Report}
      (h₁ : Json.SecretFile before after pre post v₁ s₁ files₁ path)
      (h₂ : Json.SecretFile before after pre post v₂ s₂ files₂ path)
      (hsize : Utf8.size s₁ = Utf8.size s₂)
      (hload₁ : Settings.load files₁ path = .error (.json r₁))
      (hload₂ : Settings.load files₂ path = .error (.json r₂))
      (hshape₁ : r₁.cause.IsShape) (hshape₂ : r₂.cause.IsShape) :
      Mistyped path files₁ files₂ (.json r₁) (.json r₂) (Json.SeenAlike before v₁ v₂)
  | toml {pre post s₁ s₂ : List Char} {v₁ v₂ : Toml.Scalar} {table₁ table₂ : Toml.Table}
      {r₁ r₂ : Toml.Report}
      (h₁ : Toml.SecretFile pre post v₁ s₁ table₁ files₁ path)
      (h₂ : Toml.SecretFile pre post v₂ s₂ table₂ files₂ path)
      (hload₁ : Settings.load files₁ path = .error (.toml r₁))
      (hload₂ : Settings.load files₂ path = .error (.toml r₂)) :
      Mistyped path files₁ files₂ (.toml r₁) (.toml r₂) (Toml.SeenAlike table₁ v₁ v₂ s₁ s₂)

/-- What the two readers say is the same, even as a log shows it, only if the values leave no trace,
and if they leave none it is the same. -/
theorem Mistyped.told {path : String} {files₁ files₂ : Files} {c₁ c₂ : Refusal} {alike : Prop}
    (h : Mistyped path files₁ files₂ c₁ c₂ alike) :
    ∃ head t₁ t₂, TakesOver c₁ head t₁ ∧ TakesOver c₂ head t₂ ∧ (alike → t₁ = t₂) ∧
      (logged t₁.toList = logged t₂.toList → alike) := by
  cases h with
  | json h₁ h₂ hsize hload₁ hload₂ hshape₁ hshape₂ =>
    have hiff := Json.text_eq_iff_seenAlike h₁ h₂ hsize hload₁ hload₂ hshape₁ hshape₂
    refine ⟨_, _, _, ⟨rfl, rfl⟩, ⟨rfl, rfl⟩, hiff.2, fun h => ?_⟩
    rw [logged_of_noControl (Json.Report.noControl_text hshape₁),
      logged_of_noControl (Json.Report.noControl_text hshape₂)] at h
    exact hiff.1 (String.toList_inj.1 h)
  | toml h₁ h₂ hload₁ hload₂ =>
    obtain ⟨hsame, hiff⟩ := Toml.logged_text_eq_iff h₁ h₂ hload₁ hload₂
    exact ⟨_, _, _, ⟨rfl, rfl⟩, ⟨rfl, rfl⟩, fun h => by rw [hsame h], hiff.1⟩

theorem Mistyped.load_eq {path : String} {files₁ files₂ : Files} {c₁ c₂ : Refusal} {alike : Prop}
    (h : Mistyped path files₁ files₂ c₁ c₂ alike) :
    Settings.load files₁ path = .error c₁ ∧ Settings.load files₂ path = .error c₂ := by
  cases h with
  | json _ _ _ hload₁ hload₂ => exact ⟨hload₁, hload₂⟩
  | toml _ _ hload₁ hload₂ => exact ⟨hload₁, hload₂⟩

/-- A secret that is no text is shown. Of two files that differ in how the value of their secret is
written, and that are both refused for the shape of a value, the messages are the same exactly if
the values leave no trace in them. A run on either of them fails, and of two runs the log is the
same exactly in that case, and so is the report. -/
theorem refused_secret_is_shown {arguments : List String} {env : Environment} {o : Options}
    {path : String} {files₁ files₂ : Files} {c₁ c₂ : Refusal} {alike : Prop}
    (ho : Options.ofArguments arguments env = .ok o) (hconfig : o.config = some path)
    (h : Mistyped path files₁ files₂ c₁ c₂ alike) :
    (c₁.message = c₂.message ↔ alike) ∧
      ∃ outcome₁ outcome₂, run arguments env files₁ = .ok outcome₁ ∧
        run arguments env files₂ = .ok outcome₂ ∧ outcome₁.exit = 1 ∧ outcome₂.exit = 1 ∧
        (outcome₁.output = outcome₂.output ↔ alike) ∧
        (outcome₁.errors = outcome₂.errors ↔ alike) := by
  obtain ⟨head, t₁, t₂, htold₁, htold₂, hsame, hshown⟩ := h.told
  obtain ⟨hload₁, hload₂⟩ := h.load_eq
  have hrun : ∀ files, run arguments env files = .ok (runWith files o) := by
    intro files
    rw [run, ho]
    rfl
  have htexts : t₁ = t₂ ↔ alike := ⟨fun h => hshown (by rw [h]), hsame⟩
  have hlogs : logged t₁.toList = logged t₂.toList ↔ alike :=
    ⟨hshown, fun h => by rw [hsame h]⟩
  have hmessage : c₁.message = c₂.message ↔ t₁ = t₂ := by
    rw [htold₁.message, htold₂.message, String.append_right_inj]
  refine ⟨hmessage.trans htexts, _, _, hrun files₁, hrun files₂, ?_⟩
  rw [runWith_of_load_error hconfig hload₁, runWith_of_load_error hconfig hload₂]
  exact ⟨rfl, rfl, (log_loading_eq_iff o.level htold₁ htold₂).trans hlogs,
    (report_loading_eq_iff htold₁ htold₂).trans htexts⟩

/-! ## Digits without quotes -/

/-- A secret of digits without quotes around it, in either format. -/
def digitsOnly (digits : List Char) : Files := fun path =>
  .ok (Utf8.encode
    (if Path.isJson path.toList then "\x7b\"secret\":".toList ++ digits ++ "\x7d".toList
      else "secret = ".toList ++ digits ++ "\n".toList))

/-- A number of which no more than its whole part is written. -/
def wholeNumber (digits : List Char) (h : Json.Digits digits) (hzero : digits.head? ≠ some '0') :
    Json.NumberText where
  negative := false
  whole := digits
  fraction := none
  exponent := none
  whole_ok := h
  whole_zero := fun h => absurd h hzero
  fraction_ok := by simp

/-- Digits are a secret that JSON has no quotes for. -/
theorem secretFile_json {digits : List Char} (h : Json.Digits digits)
    (hzero : digits.head? ≠ some '0') :
    Json.SecretFile [] [] "\x7b\"secret\":".toList "\x7d".toList
      (.number (wholeNumber digits h hzero)) digits (digitsOnly digits) "a.json" where
  isJson := by decide
  file := rfl
  around := .mk Json.Blank.nil Json.Blank.nil .none
    (.mk (Json.spells_escaped "secret".toList) Json.Blank.nil Json.Blank.nil)
    (.noMembers Json.Blank.nil) Json.Blank.nil
  written := by
    have hwritten := Json.Written.number (wholeNumber digits h hzero)
    have htext : (wholeNumber digits h hzero).text = digits :=
      (List.append_nil _).trans (List.append_nil _)
    rwa [htext] at hwritten
  scalar := trivial
  line := fun hmem => absurd (h.2 _ hmem) (by decide)

/-- The table of a TOML document that gives nothing but digits for a secret. -/
def digitsTable (digits : List Char) (n : Int) : Toml.Table :=
  .mk .header none
    [(⟨"secret".toList, ⟨"secret = ".toList ++ digits ++ "\n".toList,
        " = ".toList ++ digits ++ "\n".toList⟩⟩,
      .scalar (.integer n) ⟨digits ++ "\n".toList, "\n".toList⟩)]

/-- Digits are a secret that is no text in TOML either. -/
theorem secretFile_toml {digits : List Char} {n : Int}
    (hread : Toml.readScalar (digits ++ "\n".toList) = some (.integer n, "\n".toList))
    (hdocument : Toml.document ("secret = ".toList ++ digits ++ "\n".toList) =
      some (digitsTable digits n)) :
    Toml.SecretFile "secret = ".toList "\n".toList (.integer n) digits (digitsTable digits n)
      (digitsOnly digits) "a.toml" where
  notJson := by decide
  file := rfl
  document := hdocument
  value := rfl
  written := hread
  line := (Toml.noControl_of_readScalar (by simp) hread).newline_not_mem

/-- Two such secrets are seen alike only if they are the same. -/
theorem eq_of_seenAlike {digits₁ digits₂ : List Char} {n₁ n₂ : Int}
    (h : Toml.SeenAlike (digitsTable digits₁ n₁) (.integer n₁) (.integer n₂) digits₁ digits₂) :
    digits₁ = digits₂ := by
  cases h with
  | before h => cases h
  | behind h => cases h
  | itself h => exact h

theorem load_digitsOnly :
    Settings.load (digitsOnly "12345".toList) "a.json" =
        .error (.json ⟨.wrongShape (.integer 12345) .text, ⟨1, 15⟩⟩) ∧
      Settings.load (digitsOnly "54321".toList) "a.json" =
        .error (.json ⟨.wrongShape (.integer 54321) .text, ⟨1, 15⟩⟩) := by
  decide +kernel

/-- Two secrets of five digits are told apart in either format. -/
theorem refused_secret_is_shown_digits :
    let files₁ := digitsOnly "12345".toList
    let files₂ := digitsOnly "54321".toList
    (∃ c₁ c₂, Settings.load files₁ "a.json" = .error c₁ ∧
      Settings.load files₂ "a.json" = .error c₂ ∧ c₁.message ≠ c₂.message) ∧
    ∃ outcome₁ outcome₂, run ["--config=a.toml"] {} files₁ = .ok outcome₁ ∧
      run ["--config=a.toml"] {} files₂ = .ok outcome₂ ∧ outcome₁.output ≠ outcome₂.output ∧
      outcome₁.errors ≠ outcome₂.errors := by
  intro files₁ files₂
  have hdigits₁ : Json.Digits "12345".toList := .of_all (by decide) (by decide)
  have hdigits₂ : Json.Digits "54321".toList := .of_all (by decide) (by decide)
  have hzero₁ : "12345".toList.head? ≠ some '0' := by decide
  have hzero₂ : "54321".toList.head? ≠ some '0' := by decide
  constructor
  · obtain ⟨hload₁, hload₂⟩ := load_digitsOnly
    have hfound₁ : (Json.Value.number (wholeNumber _ hdigits₁ hzero₁)).asText =
        .error (.wrongShape (.integer 12345) .text) := rfl
    have hfound₂ : (Json.Value.number (wholeNumber _ hdigits₂ hzero₂)).asText =
        .error (.wrongShape (.integer 54321) .text) := rfl
    obtain ⟨hmessage, -⟩ := @refused_secret_is_shown ["--config=a.json"] {} _ _ _ _ _ _ _ rfl rfl
      (.json (secretFile_json hdigits₁ hzero₁) (secretFile_json hdigits₂ hzero₂) (by decide) hload₁
        hload₂ trivial trivial)
    refine ⟨_, _, hload₁, hload₂, fun h => ?_⟩
    cases hmessage.1 h with
    | before h => cases h
    | itself h₁ h₂ hdescribe =>
      obtain ⟨rfl, -⟩ := Json.Cause.wrongShape.inj (Except.error.inj (hfound₁.symm.trans h₁))
      obtain ⟨rfl, -⟩ := Json.Cause.wrongShape.inj (Except.error.inj (hfound₂.symm.trans h₂))
      exact absurd hdescribe (by decide +kernel)
  · have hload₁ : Settings.load files₁ "a.toml" =
        .error (.toml (.wrongShape (.integer 12345) .text ⟨1, 9, "secret = 12345".toList, 5⟩)) := by
      decide +kernel
    have hload₂ : Settings.load files₂ "a.toml" =
        .error (.toml (.wrongShape (.integer 54321) .text ⟨1, 9, "secret = 54321".toList, 5⟩)) := by
      decide +kernel
    obtain ⟨-, outcome₁, outcome₂, hrun₁, hrun₂, -, -, houtput, herrors⟩ :=
      @refused_secret_is_shown ["--config=a.toml"] {} _ _ _ _ _ _ _ rfl rfl
        (.toml (secretFile_toml rfl (by with_unfolding_all rfl))
          (secretFile_toml rfl (by with_unfolding_all rfl)) hload₁ hload₂)
    have hne : "12345".toList ≠ "54321".toList := by decide
    exact ⟨outcome₁, outcome₂, hrun₁, hrun₂, fun h => hne (eq_of_seenAlike (houtput.1 h)),
      fun h => hne (eq_of_seenAlike (herrors.1 h))⟩

/-- Of two secrets of five digits each is in the message about it, and the runs on them leave other
logs and other reports behind. -/
theorem digits_shown :
    let files₁ := digitsOnly "12345".toList
    let files₂ := digitsOnly "54321".toList
    ∃ r₁ r₂ : Json.Report, Settings.load files₁ "a.json" = .error (.json r₁) ∧
      Settings.load files₂ "a.json" = .error (.json r₂) ∧ r₁.cause.IsShape ∧ r₂.cause.IsShape ∧
      (Refusal.json r₁).message =
        "JSON parse error: invalid type: integer `12345`, expected a string at line 1 column 15" ∧
      (Refusal.json r₂).message =
        "JSON parse error: invalid type: integer `54321`, expected a string at line 1 column 15" ∧
      (runWith files₁ { config := some "a.json" }).output ≠
        (runWith files₂ { config := some "a.json" }).output ∧
      (runWith files₁ { config := some "a.json" }).errors ≠
        (runWith files₂ { config := some "a.json" }).errors := by
  intro files₁ files₂
  obtain ⟨hload₁, hload₂⟩ := load_digitsOnly
  refine ⟨_, _, hload₁, hload₂, trivial, trivial, by decide +kernel, by decide +kernel, ?_, ?_⟩
  · rw [runWith_of_load_error rfl hload₁, runWith_of_load_error rfl hload₂]
    dsimp only
    rw [Ne, log_loading_eq_iff .info ⟨rfl, rfl⟩ ⟨rfl, rfl⟩]
    decide +kernel
  · rw [runWith_of_load_error rfl hload₁, runWith_of_load_error rfl hload₂]
    dsimp only
    rw [Ne, report_loading_eq_iff ⟨rfl, rfl⟩ ⟨rfl, rfl⟩]
    decide +kernel

end BrokerAgent.Program
