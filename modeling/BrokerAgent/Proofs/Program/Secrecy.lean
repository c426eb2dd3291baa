import BrokerAgent.Proofs.Json.RoundTrip
import BrokerAgent.Settings.Inspect

/-!
# The secret stays secret

Two records that differ in their secrets only are shown alike. The rules and the mask look at a
secret, but only at its length and at whether there is one; records that agree in that much too
are `Alike`, and no step of a start tells them apart. So two runs on files with alike records end
in the same way, byte for byte.
-/

namespace BrokerAgent

namespace Settings

/-! ## Records that differ in the secret -/

/-- Two records that agree in everything but their secrets. -/
structure SameButSecret (a b : Settings) : Prop where
  protocols : a.protocols = b.protocols
  addresses : a.addresses = b.addresses
  id : a.id = b.id

/-- Two records with secrets that the mask and the rules take for the same: both are missing or
neither is, both are too long or neither is. -/
structure Alike (a b : Settings) : Prop extends SameButSecret a b where
  missing : a.secret = "" ↔ b.secret = ""
  tooLong : secretLimit < a.secret.toList.length ↔ secretLimit < b.secret.toList.length

theorem Alike.refl (a : Settings) : a.Alike a :=
  ⟨⟨rfl, rfl, rfl⟩, Iff.rfl, Iff.rfl⟩

/-- The layout for inspection does not show the secret. -/
theorem SameButSecret.inspect_eq {a b : Settings} (h : a.SameButSecret b) :
    a.inspect = b.inspect := by
  unfold inspect
  rw [h.protocols, h.addresses, h.id]

theorem SameButSecret.inspectLines_eq {a b : Settings} (h : a.SameButSecret b) :
    a.inspectLines = b.inspectLines := by
  unfold inspectLines
  rw [h.protocols, h.addresses, h.id]

/-- The mask shows no more of a secret than whether there is one. -/
theorem SameButSecret.masked_eq {a b : Settings} (h : a.SameButSecret b)
    (hm : a.secret = "" ↔ b.secret = "") : a.masked = b.masked := by
  obtain ⟨p, d, i, s⟩ := a
  obtain ⟨p', d', i', s'⟩ := b
  obtain ⟨rfl, rfl, rfl⟩ := h
  unfold masked
  by_cases hs : s = ""
  · have hs' : s' = "" := hm.1 hs
    rw [if_pos hs, if_pos hs']
    simp only [hs, hs']
  · have hs' : s' ≠ "" := fun he => hs (hm.2 he)
    rw [if_neg hs, if_neg hs']

/-- The check of the protocols does not look at the secret. -/
theorem SameButSecret.checkProtocols_eq {a b : Settings} (h : a.SameButSecret b) :
    a.checkProtocols = b.checkProtocols := by
  rw [checkProtocols, checkProtocols, h.protocols]

/-- The check of the lengths looks at no more of the secret than at its length. -/
theorem Alike.checkLimits_eq {a b : Settings} (h : a.Alike b) : a.checkLimits = b.checkLimits := by
  simp only [checkLimits, h.addresses, h.id, h.tooLong]

/-- The rules accept alike records both or refuse both for the same reason. -/
theorem Alike.check_eq {a b : Settings} (h : a.Alike b) : a.check = b.check := by
  rw [check, check, h.checkProtocols_eq, h.checkLimits_eq]

/-- The fallback address is put in regardless of the secret. -/
theorem Alike.withFallback {a b : Settings} (h : a.Alike b) :
    a.withFallback.Alike b.withFallback where
  protocols := by simp only [withFallback_protocols, h.protocols]
  addresses := by simp only [withFallback_addresses, h.addresses]
  id := by simp only [withFallback_id, h.id]
  missing := by simp only [withFallback_secret, h.missing]
  tooLong := by simp only [withFallback_secret, h.tooLong]

end Settings

namespace Startup

/-! ## Steps on alike records -/

theorem override_alike (o : Options) {a b : Settings} (h : a.Alike b) :
    (override o a).Alike (override o b) where
  protocols := rfl
  addresses := by simp only [override, h.addresses]
  id := h.id
  missing := h.missing
  tooLong := h.tooLong

/-- Records that are alike are settled alike. -/
theorem settled_alike (o : Options) {a b : Settings} (h : a.Alike b) :
    (settled o a).Alike (settled o b) :=
  (override_alike o h).withFallback

theorem fallback_alike (o : Options) {a b : Settings} (h : a.Alike b) :
    fallback o a = fallback o b := by
  rw [fallback, fallback, (override_alike o h).addresses]

/-- Two results that nobody can tell apart: the same failure, or alike records. -/
inductive AlikeResult : Except Failure Settings → Except Failure Settings → Prop
  | failed (failure : Failure) : AlikeResult (.error failure) (.error failure)
  | done {a b : Settings} : a.Alike b → AlikeResult (.ok a) (.ok b)

/-- The third step reports the same events and gives alike results. -/
theorem settle_alike (o : Options) {s t : SharedRecord} (hr : s.record.Alike t.record)
    (hc : s.created = t.created) :
    (settle o s).events = (settle o t).events ∧
      AlikeResult (settle o s).result (settle o t).result := by
  have hs := settled_alike o hr
  simp only [settle, SharedRecord.look_eq_record, creation, hc, fallback_alike o hr, hs.check_eq]
  split
  · exact ⟨rfl, .failed _⟩
  · exact ⟨by rw [hs.protocols, hs.addresses], .done hs⟩

/-- The file that the options name, if they name one, gives alike records in both file systems. -/
def AlikeFiles (o : Options) (files₁ files₂ : Files) : Prop :=
  ∀ path, o.config = some path → ∃ a b,
    Settings.load files₁ path = .ok a ∧ Settings.load files₂ path = .ok b ∧ a.Alike b

/-- A whole start reports the same events and gives alike results. -/
theorem start_alike {o : Options} {files₁ files₂ : Files} (h : AlikeFiles o files₁ files₂)
    (shared : SharedRecord) :
    (start files₁ o shared).events = (start files₂ o shared).events ∧
      AlikeResult (start files₁ o shared).result (start files₂ o shared).result := by
  cases hc : o.config with
  | none =>
    -- without a file the two starts are the same
    have hs := settle_alike o (Settings.Alike.refl shared.record) (rfl : shared.created = _)
    simp only [start, load, hc, seed, loadedEvent]
    exact ⟨trivial, hs.2⟩
  | some path =>
    obtain ⟨a, b, ha, hb, hab⟩ := h path hc
    obtain ⟨he, hr⟩ := settle_alike o (s := shared.put a) (t := shared.put b) hab rfl
    simp only [start, load, hc, ha, hb, seed, loadedEvent]
    exact ⟨by rw [he], hr⟩

end Startup

namespace Program

open Startup

/-! ## Whole runs -/

/-- Files that are alike lead to the same events. -/
theorem events_eq {o : Options} {files₁ files₂ : Files} (h : AlikeFiles o files₁ files₂) :
    events files₁ o = events files₂ o := by
  obtain ⟨he, hr⟩ := start_alike h {}
  simp only [events, he]
  generalize (start files₁ o {}).result = r₁ at hr ⊢
  generalize (start files₂ o {}).result = r₂ at hr ⊢
  cases hr with
  | failed failure => rfl
  | done hab => rfl

/-- Files that are alike lead to the same run. -/
theorem runWith_eq {o : Options} {files₁ files₂ : Files} (h : AlikeFiles o files₁ files₂) :
    runWith files₁ o = runWith files₂ o := by
  have hr := (start_alike h {}).2
  simp only [runWith, events_eq h]
  generalize (start files₁ o {}).result = r₁ at hr ⊢
  generalize (start files₂ o {}).result = r₂ at hr ⊢
  cases hr with
  | failed failure => rfl
  | done hab => simp only [printed, hab.masked_eq hab.missing]

/-- Nothing that a run leaves behind depends on the secret in its file. Files that load as alike
records give the same exit code, the same log and printed record, and the same report, for all
arguments and every environment, whatever else the two file systems hold. And a record is shown,
on one line or on several, without its secret; its mask tells whether there is a secret. -/
theorem run_independent_of_secret :
    (∀ (arguments : List String) (env : Environment) (files₁ files₂ : Files),
      (∀ o path, Options.ofArguments arguments env = .ok o → o.config = some path → ∃ a b,
        Settings.load files₁ path = .ok a ∧ Settings.load files₂ path = .ok b ∧ a.Alike b) →
      run arguments env files₁ = run arguments env files₂) ∧
    ∀ a b : Settings, a.SameButSecret b →
      a.inspect = b.inspect ∧ a.inspectLines = b.inspectLines ∧
        ((a.secret = "" ↔ b.secret = "") → a.masked = b.masked) := by
  constructor
  · intro arguments env files₁ files₂ h
    unfold run
    cases ho : Options.ofArguments arguments env with
    | error usage => rfl
    | ok o =>
      have hf : AlikeFiles o files₁ files₂ := fun path hc => h o path ho hc
      exact congrArg Except.ok (runWith_eq hf)
  · intro a b h
    exact ⟨h.inspect_eq, h.inspectLines_eq, h.masked_eq⟩

/-- A record with a given secret. -/
def withSecret (secret : String) : Settings :=
  { protocols := ["tcp"], addresses := ["a:1"], id := "device", secret := secret }

/-- Secrets of different lengths, one of them with characters that are escaped in the file, and one
that is missing. -/
theorem run_eq_of_two_secrets :
    run ["--config=a.json", "--print"] {}
        (fun _ => .ok (Utf8.encode ((withSecret "apple").toJson .compact).toList)) =
      run ["--config=a.json", "--print"] {}
        (fun _ => .ok (Utf8.encode ((withSecret "\"pear\"\n").toJson .compact).toList)) ∧
      (withSecret "apple").inspect = (withSecret "").inspect ∧
      (withSecret "apple").masked = (withSecret "\"pear\"\n").masked := by
  have hsame : ∀ a b, (withSecret a).SameButSecret (withSecret b) := fun a b => ⟨rfl, rfl, rfl⟩
  have hmissing : (withSecret "apple").secret = "" ↔ (withSecret "\"pear\"\n").secret = "" := by
    decide
  refine ⟨run_independent_of_secret.1 _ _ _ _ ?_, (run_independent_of_secret.2 _ _ (hsame ..)).1,
    (run_independent_of_secret.2 _ _ (hsame ..)).2.2 hmissing⟩
  intro o path ho hc
  have hoptions : Options.ofArguments ["--config=a.json", "--print"] {} =
      .ok { config := some "a.json", print := true } := by rfl
  have hpath : path = "a.json" := by
    rw [hoptions] at ho
    rw [← Except.ok.inj ho] at hc
    exact (Option.some.inj hc).symm
  have hload : ∀ s : Settings,
      Settings.load (fun _ => .ok (Utf8.encode (s.toJson .compact).toList)) path = .ok s := by
    intro s
    apply Settings.load_toJson Json.Layout.compact_sound Json.Blank.nil
    · rw [hpath]
      decide
    · rw [List.append_nil]
  exact ⟨_, _, hload _, hload _, hsame .., hmissing, by decide⟩

end Program
end BrokerAgent
