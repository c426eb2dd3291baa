import BrokerAgent.Proofs.Json.Around
import BrokerAgent.Proofs.Json.Reports

/-!
# A secret that is no text

Two files that differ in nothing but how the value of their secret is written, and that are both
refused for the shape of a value. If it is not the secret that is refused, the two reports are the
same, and if it is, they are the same only if the two values have the same name in a message
(`text_eq_iff_seenAlike`).
-/

namespace BrokerAgent.Json

/-! ## Files around a secret -/

/-- A JSON file with one object in it, in which the secret has a value without parts. The texts
before and behind the value are named, and so are the members in them. -/
structure SecretFile (before after : List (List Char × Value)) (pre post : List Char) (v : Value)
    (s : List Char) (files : Files) (path : String) : Prop where
  isJson : Path.isJson path.toList = true
  file : files path = .ok (Utf8.encode (pre ++ s ++ post))
  around : Around before "secret".toList after pre post
  written : Written (.value v) s
  scalar : v.IsScalar
  line : '\n' ∉ s

/-- Two values of the secret that leave no trace in what such files are refused for: a member before
the secret is refused, or both values are texts, so that what is refused comes behind them, or
neither is a text and both have the same name. -/
inductive SeenAlike (before : List (List Char × Value)) : Value → Value → Prop
  | before {cause : Cause} {v₁ v₂ : Value} (h : before.foldlM Gathered.take {} = .error cause) :
      SeenAlike before v₁ v₂
  | behind (t₁ t₂ : List Char) : SeenAlike before (.text t₁) (.text t₂)
  | itself {v₁ v₂ : Value} {found₁ found₂ : Shape.Found}
      (h₁ : v₁.asText = .error (.wrongShape found₁ .text))
      (h₂ : v₂.asText = .error (.wrongShape found₂ .text))
      (h : found₁.describe .scientific = found₂.describe .scientific) : SeenAlike before v₁ v₂

/-- A secret is taken once, and only as a text. -/
theorem take_secret (g : Gathered) (v : Value) :
    g.take ("secret".toList, v) =
      if Field.secret ∈ g.seen then .error (.repeatedField .secret)
      else v.asText.map fun text => ⟨.secret :: g.seen, { g.record with secret := text }⟩ := by
  have hfield : Field.ofName? (String.ofList "secret".toList) = some .secret := by decide
  rw [Gathered.take, hfield]
  dsimp only
  rw [Value.assign]
  cases v.asText <;> rfl

namespace SecretFile

variable {before after : List (List Char × Value)} {pre post s : List Char} {v : Value}
  {files : Files} {path : String} {r : Report}

/-- A report is about what the fold over the members ends with. -/
theorem fold_eq_error (h : SecretFile before after pre post v s files path)
    (hload : Settings.load files path = .error (.json r)) :
    (before ++ ("secret".toList, v) :: after).foldlM Gathered.take {} = .error r.cause := by
  have hmembers := Settings.load_members h.isJson h.file (h.around.document h.written)
  cases hg : gather (before ++ ("secret".toList, v) :: after) with
  | ok record =>
    rw [hg] at hmembers
    rw [hmembers] at hload
    cases hload
  | error cause =>
    rw [hg] at hmembers
    obtain ⟨place, hplace⟩ := hmembers
    rw [hplace] at hload
    cases hload
    exact map_eq_error.1 hg

/-- The place of a report lies behind what had been read. -/
theorem report_eq (h : SecretFile before after pre post v s files path)
    (hload : Settings.load files path = .error (.json r)) {cause : Cause} {w u : List Char}
    (htext : pre ++ s ++ post = w ++ u)
    (hfault : settings (pre ++ s ++ post) = .error ⟨cause, .here u⟩) :
    r = ⟨cause, Place.after (Utf8.encode w)⟩ := by
  have hreport := Settings.load_of_settings_error h.isJson h.file hfault
  rw [hload] at hreport
  obtain rfl := Refusal.json.inj (Except.error.inj hreport)
  rw [Fault.report, htext, Mark.place_here]

/-- The members before the secret are taken, so it is the secret that is refused, or a member behind
it. -/
theorem take_or (h : SecretFile before after pre post v s files path)
    (hload : Settings.load files path = .error (.json r)) {g : Gathered}
    (hbefore : before.foldlM Gathered.take {} = .ok g) :
    g.take ("secret".toList, v) = .error r.cause ∨
      ∃ next, g.take ("secret".toList, v) = .ok next ∧
        after.foldlM Gathered.take next = .error r.cause := by
  have hfold := h.fold_eq_error hload
  rw [List.foldlM_append, hbefore] at hfold
  have hfold : (("secret".toList, v) :: after).foldlM Gathered.take g = .error r.cause := hfold
  rw [List.foldlM_cons, bind_eq_error] at hfold
  exact hfold

/-- A secret that is no text is refused at its end. -/
theorem refused_itself (h : SecretFile before after pre post v s files path)
    (hload : Settings.load files path = .error (.json r)) (hshape : r.cause.IsShape) {g : Gathered}
    (hbefore : before.foldlM Gathered.take {} = .ok g) {cause : Cause}
    (hv : v.asText = .error cause) :
    ∃ found, v.asText = .error (.wrongShape found .text) ∧
      r = ⟨.wrongShape found .text, Place.after (Utf8.encode (pre ++ s))⟩ := by
  obtain ⟨found, wanted, hcause⟩ := hshape.eq
  have htake : g.take ("secret".toList, v) = .error r.cause := by
    rcases h.take_or hload hbefore with htake | ⟨next, htake, -⟩
    · exact htake
    · rw [take_secret, hv] at htake
      split at htake <;> cases htake
  have htext : v.asText = .error (.wrongShape found wanted) := by
    rw [take_secret, hcause] at htake
    split at htake
    · cases htake
    · exact map_eq_error.1 htake
  have hwanted : wanted = .text := by
    rcases h.written.text_or with ⟨t, _, rfl, -⟩ | ⟨href, -⟩
    · cases htext
    · rw [href] at htext
      exact (found_of_refusal (Except.error.inj htext)).2
  subst hwanted
  rw [hcause] at htake
  exact ⟨found, htext, h.report_eq hload rfl
    (h.around.refused_itself hbefore h.written h.scalar htake)⟩

/-- Behind a secret that is a text the same is refused whatever text it is. -/
theorem refused_behind {t : List Char} (h : SecretFile before after pre post (.text t) s files path)
    (hload : Settings.load files path = .error (.json r)) (hshape : r.cause.IsShape) {g : Gathered}
    (hbefore : before.foldlM Gathered.take {} = .ok g) :
    ∃ w cause, w ≠ [] ∧ ∀ {t s files r}, SecretFile before after pre post (.text t) s files path →
      Settings.load files path = .error (.json r) →
        r = ⟨cause, Place.after (Utf8.encode (pre ++ s ++ w))⟩ := by
  obtain ⟨found, wanted, hcause⟩ := hshape.eq
  have htaken : ∀ t, Field.secret ∉ g.seen → ∃ next, g.take ("secret".toList, .text t) = .ok next ∧
      next.seen = .secret :: g.seen := by
    intro t hseen
    rw [take_secret, if_neg hseen]
    exact ⟨_, rfl, rfl⟩
  have hseen : Field.secret ∉ g.seen := by
    intro hmem
    rcases h.take_or hload hbefore with htake | ⟨next, htake, -⟩
    · rw [take_secret, if_pos hmem, hcause] at htake
      cases htake
    · rw [take_secret, if_pos hmem] at htake
      cases htake
  obtain ⟨next, htake, hnext⟩ := htaken t hseen
  have hafter : after.foldlM Gathered.take next = .error (.wrongShape found wanted) := by
    rcases h.take_or hload hbefore with htake' | ⟨next', htake', hafter⟩
    · rw [htake] at htake'
      cases htake'
    · rw [htake] at htake'
      obtain rfl := Except.ok.inj htake'
      rw [hafter, hcause]
  obtain ⟨w, u, hw, rfl, hsettings⟩ := h.around.refused_behind hbefore hafter
  refine ⟨w, .wrongShape found wanted, hw, fun {t s files r} h hload => ?_⟩
  obtain ⟨next', htake', hnext'⟩ := htaken t hseen
  refine h.report_eq hload (List.append_assoc _ _ _).symm
    (hsettings _ _ next' h.written htake' (hnext'.trans hnext.symm))

end SecretFile

/-! ## Two files -/

section Pair

variable {before after : List (List Char × Value)} {pre post s₁ s₂ : List Char} {v₁ v₂ : Value}
  {files₁ files₂ : Files} {path : String} {r₁ r₂ : Report}

/-- Texts of one size without line feeds are interchangeable for every place behind them. -/
theorem after_encode_swap (h₁ : '\n' ∉ s₁) (h₂ : '\n' ∉ s₂) (hsize : Utf8.size s₁ = Utf8.size s₂)
    (pre w : List Char) : Place.after (Utf8.encode (pre ++ s₁ ++ w)) =
      Place.after (Utf8.encode (pre ++ s₂ ++ w)) := by
  rw [Place.after_encode_append, Place.after_encode_append (pre ++ s₂), Place.after_encode_line h₁,
    Place.after_encode_line h₂, hsize]

/-- What is refused before the secret is reported alike. -/
theorem eq_of_refused_before {cause : Cause}
    (h₁ : SecretFile before after pre post v₁ s₁ files₁ path)
    (h₂ : SecretFile before after pre post v₂ s₂ files₂ path)
    (hload₁ : Settings.load files₁ path = .error (.json r₁))
    (hload₂ : Settings.load files₂ path = .error (.json r₂)) (hshape₁ : r₁.cause.IsShape)
    (hbefore : before.foldlM Gathered.take {} = .error cause) : r₁ = r₂ := by
  have hfold := h₁.fold_eq_error hload₁
  rw [List.foldlM_append, hbefore] at hfold
  obtain rfl : cause = r₁.cause := Except.error.inj hfold
  obtain ⟨found, wanted, hcause⟩ := hshape₁.eq
  rw [hcause] at hbefore
  obtain ⟨w, u, hpre, hsettings⟩ := h₁.around.refused_before hbefore
  have htext : ∀ s, pre ++ s ++ post = w ++ (u ++ (s ++ post)) := by
    intro s
    rw [hpre]
    simp only [List.append_assoc]
  rw [h₁.report_eq hload₁ (htext s₁) (hsettings s₁), h₂.report_eq hload₂ (htext s₂) (hsettings s₂)]

/-- What is refused behind a text is not reported where a value that is none is. -/
theorem text_ne_of_text {t : List Char} {cause : Cause} {g : Gathered}
    (h₁ : SecretFile before after pre post (.text t) s₁ files₁ path)
    (h₂ : SecretFile before after pre post v₂ s₂ files₂ path)
    (hsize : Utf8.size s₁ = Utf8.size s₂) (hload₁ : Settings.load files₁ path = .error (.json r₁))
    (hload₂ : Settings.load files₂ path = .error (.json r₂)) (hshape₁ : r₁.cause.IsShape)
    (hshape₂ : r₂.cause.IsShape) (hbefore : before.foldlM Gathered.take {} = .ok g)
    (hv₂ : v₂.asText = .error cause) : r₁.text ≠ r₂.text := by
  intro htext
  obtain ⟨w, cause₁, hw, hr₁⟩ := h₁.refused_behind hload₁ hshape₁ hbefore
  obtain ⟨found, -, hr₂⟩ := h₂.refused_itself hload₂ hshape₂ hbefore hv₂
  have hplace := (Report.text_eq_iff.1 htext).2
  rw [hr₁ h₁ hload₁, hr₂] at hplace
  have hswap := after_encode_swap h₁.line h₂.line hsize pre []
  rw [List.append_nil, List.append_nil] at hswap
  exact Place.after_append_ne hw (pre ++ s₁) (hplace.trans hswap.symm)

/-- Two files that differ in the secret only, by values without parts that take the same number of
bytes on one line, and that are both refused for the shape of a value: the messages are the same if
and only if the values leave no trace in them. -/
theorem text_eq_iff_seenAlike (h₁ : SecretFile before after pre post v₁ s₁ files₁ path)
    (h₂ : SecretFile before after pre post v₂ s₂ files₂ path)
    (hsize : Utf8.size s₁ = Utf8.size s₂) (hload₁ : Settings.load files₁ path = .error (.json r₁))
    (hload₂ : Settings.load files₂ path = .error (.json r₂)) (hshape₁ : r₁.cause.IsShape)
    (hshape₂ : r₂.cause.IsShape) : r₁.text = r₂.text ↔ SeenAlike before v₁ v₂ := by
  cases hbefore : before.foldlM Gathered.take {} with
  | error cause =>
    obtain rfl := eq_of_refused_before h₁ h₂ hload₁ hload₂ hshape₁ hbefore
    exact ⟨fun _ => .before hbefore, fun _ => rfl⟩
  | ok g =>
    rcases h₁.written.text_or with ⟨t₁, _, rfl, -⟩ | ⟨hv₁, -⟩ <;>
      rcases h₂.written.text_or with ⟨t₂, _, rfl, -⟩ | ⟨hv₂, -⟩
    -- both are texts
    · obtain ⟨w, cause, -, href⟩ := h₁.refused_behind hload₁ hshape₁ hbefore
      have hreports : r₁ = r₂ := by
        rw [href h₁ hload₁, href h₂ hload₂, after_encode_swap h₁.line h₂.line hsize]
      exact ⟨fun _ => .behind t₁ t₂, fun _ => by rw [hreports]⟩
    -- one of them is a text
    · refine ⟨fun h => absurd h (text_ne_of_text h₁ h₂ hsize hload₁ hload₂ hshape₁ hshape₂ hbefore
        hv₂), fun h => ?_⟩
      cases h with
      | before h => rw [hbefore] at h; cases h
      | behind => cases hv₂
      | itself h => cases h
    · refine ⟨fun h => absurd h.symm (text_ne_of_text h₂ h₁ hsize.symm hload₂ hload₁ hshape₂ hshape₁
        hbefore hv₁), fun h => ?_⟩
      cases h with
      | before h => rw [hbefore] at h; cases h
      | behind => cases hv₁
      | itself _ h => cases h
    -- none is
    · obtain ⟨found₁, hfound₁, hr₁⟩ := h₁.refused_itself hload₁ hshape₁ hbefore hv₁
      obtain ⟨found₂, hfound₂, hr₂⟩ := h₂.refused_itself hload₂ hshape₂ hbefore hv₂
      have hplace := after_encode_swap h₁.line h₂.line hsize pre []
      rw [List.append_nil, List.append_nil] at hplace
      constructor
      · intro htext
        have hcause := (Report.text_eq_iff.1 htext).1
        rw [hr₁, hr₂] at hcause
        exact .itself hfound₁ hfound₂ (text_wrongShape_eq_iff.1 hcause)
      · intro h
        cases h with
        | before h => rw [hbefore] at h; cases h
        | behind => cases hv₁
        | itself h₁ h₂ hdescribe =>
          obtain ⟨rfl, -⟩ := Cause.wrongShape.inj (Except.error.inj (hfound₁.symm.trans h₁))
          obtain ⟨rfl, -⟩ := Cause.wrongShape.inj (Except.error.inj (hfound₂.symm.trans h₂))
          rw [Report.text_eq_iff, hr₁, hr₂]
          exact ⟨text_wrongShape_eq_iff.2 hdescribe, hplace⟩

end Pair

end BrokerAgent.Json
