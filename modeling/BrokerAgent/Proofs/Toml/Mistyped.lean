import BrokerAgent.Proofs.Settings.Formats
import BrokerAgent.Proofs.Toml.Excerpts
import BrokerAgent.Proofs.Toml.Refused
import BrokerAgent.Proofs.Toml.Tokens

/-!
# A secret that is no text, in TOML

The report about a value of the wrong shape shows the line that the value stands on. So the report
about a secret shows the secret as it is written, and the log shows it too. The report about another
value shows another line, and nothing of the secret. So two documents that differ in nothing but the
secret are reported alike if a value before it is refused, if both secrets are texts, or if the
documents are the same, and in no other case (`logged_text_eq_iff`).
-/

namespace BrokerAgent.Toml

/-- A TOML file in which the secret has a value without parts, written on one line. The texts before
and behind the value are named, and so is the table of the document. -/
structure SecretFile (pre post : List Char) (v : Scalar) (s : List Char) (table : Table)
    (files : Files) (path : String) : Prop where
  notJson : Path.isJson path.toList = false
  file : files path = .ok (Utf8.encode (pre ++ s ++ post))
  document : Toml.document (pre ++ s ++ post) = some table
  value : table.get? "secret".toList = some (.scalar v ⟨s ++ post, post⟩)
  written : readScalar (s ++ post) = some (v, post)
  line : '\n' ∉ s

/-- Two values of the secret that leave no trace in what such files are refused for: an entry before
the secret is refused, or both values are texts, so that what is refused comes behind them, or both
are written with the same characters. -/
inductive SeenAlike (table : Table) (v₁ v₂ : Scalar) (s₁ s₂ : List Char) : Prop
  | before {m : Mismatch}
      (h : (table.entries.takeWhile fun e => e.1.name ≠ "secret".toList).foldlM takeEntry {} =
        .error m)
  | behind {t₁ t₂ : List Char} (h₁ : v₁ = .text t₁) (h₂ : v₂ = .text t₂)
  | itself (h : s₁ = s₂)

/-! ## The entry of the secret -/

/-- A table in which the secret has a value, with the entries before and behind it. -/
structure HasSecret (t : Table) (node : Node) (before : List (Key × Node)) (key : Key)
    (after : List (Key × Node)) : Prop where
  entries : t.entries = before ++ (key, node) :: after
  key : key.name = "secret".toList
  before : ∀ e ∈ before, e.1.name ≠ "secret".toList
  after : ∀ e ∈ after, e.1.name ≠ "secret".toList

namespace HasSecret

variable {t t' : Table} {node node' : Node} {before after : List (Key × Node)} {key : Key}

/-- The secret of a document is given once. -/
theorem of_get? (h : t.get? "secret".toList = some node) (ht : t.Distinct) :
    ∃ before key after, HasSecret t node before key after := by
  obtain ⟨⟨key, _⟩, hfind, rfl⟩ := Option.map_eq_some_iff.1 h
  obtain ⟨hkey, before, after, hentries, hbefore⟩ := List.find?_eq_some_iff_append.1 hfind
  have hkey : key.name = "secret".toList := of_decide_eq_true hkey
  refine ⟨before, key, after, hentries, hkey, fun e he hname => ?_, fun e he hname => ?_⟩
  · have hne := hbefore e he
    rw [decide_eq_true hname] at hne
    cases hne
  · rw [Table.Distinct, hentries, List.map_append, List.map_cons] at ht
    refine (List.nodup_cons.1 (List.Nodup.of_append_right ht)).1 ?_
    exact List.mem_map.2 ⟨e, he, hname.trans hkey.symm⟩

theorem get?_eq (h : HasSecret t node before key after) :
    t.get? "secret".toList = some node := by
  have hbefore : before.find? (fun e => e.1.name = "secret".toList) = none :=
    List.find?_eq_none.2 fun e he hname => h.before e he (of_decide_eq_true hname)
  rw [Table.get?, h.entries, List.find?_append, hbefore, List.find?_cons, decide_eq_true h.key]
  rfl

theorem takeWhile_eq (h : HasSecret t node before key after) :
    (t.entries.takeWhile fun e => e.1.name ≠ "secret".toList) = before := by
  have hsecret : decide (key.name ≠ "secret".toList) = false :=
    decide_eq_false (not_not_intro h.key)
  rw [h.entries, List.takeWhile_append_of_pos fun e he => decide_eq_true (h.before e he),
    List.takeWhile_cons, hsecret]
  exact List.append_nil before

/-- Something before the secret is refused, or the secret, or something behind it. -/
theorem settings_eq_error_iff {m : Mismatch} (h : HasSecret t node before key after) :
    settings t = .error m ↔
      (before.findSome? fault?).or ((fault? (key, node)).or (after.findSome? fault?)) = some m := by
  rw [Toml.settings_eq_error_iff, h.entries, List.findSome?_append, List.findSome?_cons]
  cases fault? (key, node) <;> rfl

/-- Entries that are alike have the same names. -/
theorem name_ne_of_like {A : Likeness} {es es' : List (Key × Node)} {name : List Char}
    (h : List.Forall₂ (EntryLike A) es es') (hne : ∀ e ∈ es, e.1.name ≠ name) :
    ∀ e ∈ es', e.1.name ≠ name := by
  induction h with
  | nil => simp
  | cons he _ ih =>
    obtain ⟨hfirst, hrest⟩ := List.forall_mem_cons.1 hne
    exact List.forall_mem_cons.2 ⟨he.key.name ▸ hfirst, ih hrest⟩

/-- Of like entries each one is like another one in its place. -/
theorem exists_of_forall₂ {A : Likeness} {es es' es₀ : List (Key × Node)} {e : Key × Node}
    (h : List.Forall₂ (EntryLike A) (es ++ e :: es₀) es') :
    ∃ before' e' after', es' = before' ++ e' :: after' ∧ List.Forall₂ (EntryLike A) es before' ∧
      EntryLike A e e' ∧ List.Forall₂ (EntryLike A) es₀ after' := by
  induction es generalizing es' with
  | nil =>
    obtain _ | ⟨he, hafter⟩ := h
    exact ⟨[], _, _, rfl, .nil, he, hafter⟩
  | cons e₁ es ih =>
    obtain _ | ⟨he₁, h⟩ := h
    obtain ⟨before', e', after', rfl, hbefore, he, hafter⟩ := ih h
    exact ⟨_ :: before', e', after', rfl, .cons he₁ hbefore, he, hafter⟩

/-- Like tables have their secret in the same place. -/
theorem of_like {A : Likeness} {S : Span → Span → Prop} (h : HasSecret t node before key after)
    (hlike : Table.Like A S t t') (ht' : t'.get? "secret".toList = some node') :
    ∃ before' key' after', HasSecret t' node' before' key' after' ∧
      List.Forall₂ (EntryLike A) before before' ∧ List.Forall₂ (EntryLike A) after after' := by
  have hentries := hlike.entries
  rw [h.entries] at hentries
  obtain ⟨before', ⟨key', node⟩, after', heq, hbefore, he, hafter⟩ := exists_of_forall₂ hentries
  have hsecret : HasSecret t' node before' key' after' :=
    ⟨heq, he.key.name ▸ h.key, name_ne_of_like hbefore h.before, name_ne_of_like hafter h.after⟩
  obtain rfl := Option.some.inj (hsecret.get?_eq.symm.trans ht')
  exact ⟨before', key', after', hsecret, hbefore, hafter⟩

end HasSecret

/-! ## Files around a secret -/

namespace SecretFile

variable {pre post s : List Char} {v : Scalar} {table : Table} {files : Files} {path : String}
  {r : Report}

/-- Such a file is refused for the first of its entries with a value of a wrong shape. -/
theorem exists_mismatch (h : SecretFile pre post v s table files path)
    (hload : Settings.load files path = .error (.toml r)) :
    ∃ m, settings table = .error m ∧
      r = .wrongShape m.found m.wanted (.of (pre ++ s ++ post) m.span) := by
  rw [Settings.load_toml_text h.notJson h.file, Settings.ofToml, h.document] at hload
  obtain ⟨r', hsettings, heq⟩ := mapError_eq_error.1 hload
  cases heq
  obtain ⟨m, hm, rfl⟩ := mapError_eq_error.1 hsettings
  exact ⟨m, hm, rfl⟩

/-- A secret that is no text is refused itself, unless something before it is. -/
theorem refused_itself (h : SecretFile pre post v s table files path)
    (hload : Settings.load files path = .error (.toml r)) {before after : List (Key × Node)}
    {key : Key} (hsecret : HasSecret table (.scalar v ⟨s ++ post, post⟩) before key after)
    (hbefore : before.findSome? fault? = none) (hv : ∀ t, v ≠ .text t) :
    r = .wrongShape v.found .text (.of (pre ++ s ++ post) ⟨s ++ post, post⟩) := by
  obtain ⟨m, hm, rfl⟩ := h.exists_mismatch hload
  have hfault : fault? (key, .scalar v ⟨s ++ post, post⟩) =
      some ⟨v.found, .text, ⟨s ++ post, post⟩⟩ := by
    rw [fault?_secret hsecret.key]
    cases v with
    | text t => exact absurd rfl (hv t)
    | _ => rfl
  rw [hsecret.settings_eq_error_iff, hbefore, hfault] at hm
  cases hm
  rfl

/-- Behind a secret that is a text something else is refused, unless something before it is. -/
theorem refused_behind {t : List Char} (h : SecretFile pre post (.text t) s table files path)
    (hload : Settings.load files path = .error (.toml r)) {before after : List (Key × Node)}
    {key : Key} (hsecret : HasSecret table (.scalar (.text t) ⟨s ++ post, post⟩) before key after)
    (hbefore : before.findSome? fault? = none) :
    ∃ m, after.findSome? fault? = some m ∧
      r = .wrongShape m.found m.wanted (.of (pre ++ s ++ post) m.span) := by
  obtain ⟨m, hm, rfl⟩ := h.exists_mismatch hload
  rw [hsecret.settings_eq_error_iff, hbefore, fault?_secret hsecret.key, Option.none_or,
    Option.none_or] at hm
  exact ⟨m, hm, rfl⟩

/-- The log shows what stands before the secret on its line, the secret, and what stands behind it.
-/
theorem logged_itself (hs : Text.NoControl s) (found : Shape.Found) :
    ∃ rest, logged (Report.wrongShape found .text
        (.of (pre ++ s ++ post) ⟨s ++ post, post⟩)).text.toList =
      logged (excerptHead (lastLine pre).1 (lastLine pre).2.length ++ (lastLine pre).2.reverse) ++
        (s ++ logged (post.takeWhile (· ≠ '\n')) ++ '\n' :: rest) := by
  obtain ⟨rest, htext⟩ := toList_text_wrongShape found .text
    (.of (pre ++ s ++ post) ⟨s ++ post, post⟩)
  obtain ⟨hline, hbefore, hshown⟩ := excerpt_of hs.newline_not_mem pre post
  refine ⟨logged rest, ?_⟩
  rw [htext, hline, hbefore, hshown]
  simp only [logged_append, logged_newline, logged_of_noControl hs, List.append_assoc]

end SecretFile

/-- If the log shows the reports about two secrets alike, they are written alike. -/
theorem eq_of_logged_itself {pre post s₁ s₂ : List Char} {found₁ found₂ : Shape.Found}
    (h₁ : Text.NoControl s₁) (h₂ : Text.NoControl s₂)
    (h : logged (Report.wrongShape found₁ .text
        (.of (pre ++ s₁ ++ post) ⟨s₁ ++ post, post⟩)).text.toList =
      logged (Report.wrongShape found₂ .text
        (.of (pre ++ s₂ ++ post) ⟨s₂ ++ post, post⟩)).text.toList) : s₁ = s₂ := by
  obtain ⟨rest₁, htext₁⟩ := SecretFile.logged_itself h₁ found₁
  obtain ⟨rest₂, htext₂⟩ := SecretFile.logged_itself h₂ found₂
  rw [h, htext₂] at htext₁
  have hpost : '\n' ∉ logged (post.takeWhile (· ≠ '\n')) := by
    refine newline_not_mem_logged fun hmem => ?_
    have hall := List.all_eq_true.1 (List.all_takeWhile (p := (· ≠ '\n'))) _ hmem
    exact of_decide_eq_true hall rfl
  have hline : ∀ {s}, Text.NoControl s → '\n' ∉ s ++ logged (post.takeWhile (· ≠ '\n')) := by
    intro s hs hmem
    rcases List.mem_append.1 hmem with hmem | hmem
    · exact hs.newline_not_mem hmem
    · exact hpost hmem
  -- up to the end of the line the two texts are the same
  have hlines := congrArg (List.takeWhile (· ≠ '\n')) (List.append_cancel_left htext₁)
  rw [takeWhile_line (hline h₁), takeWhile_line (hline h₂)] at hlines
  exact (List.append_cancel_right (List.append_cancel_right hlines)).symm

/-! ## Two files -/

section Pair

variable {pre post s s₁ s₂ : List Char} {v₁ v₂ : Scalar} {table₁ table₂ : Table}
  {files₁ files₂ : Files} {path : String} {r₁ r₂ : Report}

/-- What is refused elsewhere is reported alike. -/
theorem report_eq_of_like {hs₁ : '\n' ∉ s₁} {hs₂ : '\n' ∉ s₂} {m₁ m₂ : Mismatch}
    (h : m₁.Like (elsewhere pre post hs₁ hs₂) m₂) :
    Report.wrongShape m₁.found m₁.wanted (.of (pre ++ s₁ ++ post) m₁.span) =
      .wrongShape m₂.found m₂.wanted (.of (pre ++ s₂ ++ post) m₂.span) := by
  rw [h.found, h.wanted, h.span.1]

/-- Two such files have the secret in the same place, and what is refused before it or behind it is
refused alike. -/
theorem exists_hasSecret (h₁ : SecretFile pre post v₁ s₁ table₁ files₁ path)
    (h₂ : SecretFile pre post v₂ s₂ table₂ files₂ path) :
    ∃ before₁ key₁ after₁ before₂ key₂ after₂,
      HasSecret table₁ (.scalar v₁ ⟨s₁ ++ post, post⟩) before₁ key₁ after₁ ∧
      HasSecret table₂ (.scalar v₂ ⟨s₂ ++ post, post⟩) before₂ key₂ after₂ ∧
      Option.Rel (Mismatch.Like (elsewhere pre post h₁.line h₂.line))
        (before₁.findSome? fault?) (before₂.findSome? fault?) ∧
      Option.Rel (Mismatch.Like (elsewhere pre post h₁.line h₂.line))
        (after₁.findSome? fault?) (after₂.findSome? fault?) := by
  obtain ⟨before₁, key₁, after₁, hsecret₁⟩ :=
    HasSecret.of_get? h₁.value (distinct_of_document h₁.document)
  have hmem : (key₁, .scalar v₁ ⟨s₁ ++ post, post⟩) ∈ table₁.entries := by
    rw [hsecret₁.entries]
    exact List.mem_append_right _ List.mem_cons_self
  obtain ⟨table, htable, hlike⟩ :=
    document_elsewhere h₁.line h₂.line h₁.document hmem hsecret₁.key h₂.written
  obtain rfl := Option.some.inj (htable.symm.trans h₂.document)
  obtain ⟨before₂, key₂, after₂, hsecret₂, hbefore, hafter⟩ := hsecret₁.of_like hlike h₂.value
  exact ⟨before₁, key₁, after₁, before₂, key₂, after₂, hsecret₁, hsecret₂,
    rel_findSome? hbefore hsecret₁.before, rel_findSome? hafter hsecret₁.after⟩

/-- If a value before the secret is refused, or both secrets are texts, the secret is not shown. -/
theorem eq_of_refused_elsewhere (h₁ : SecretFile pre post v₁ s₁ table₁ files₁ path)
    (h₂ : SecretFile pre post v₂ s₂ table₂ files₂ path)
    (hload₁ : Settings.load files₁ path = .error (.toml r₁))
    (hload₂ : Settings.load files₂ path = .error (.toml r₂))
    (h : (∃ m, (table₁.entries.takeWhile fun e => e.1.name ≠ "secret".toList).foldlM takeEntry {} =
        .error m) ∨ (∃ t₁, v₁ = .text t₁) ∧ ∃ t₂, v₂ = .text t₂) : r₁ = r₂ := by
  obtain ⟨before₁, key₁, after₁, before₂, key₂, after₂, hsecret₁, hsecret₂, hbefore, hafter⟩ :=
    exists_hasSecret h₁ h₂
  obtain ⟨m₁, hm₁, rfl⟩ := h₁.exists_mismatch hload₁
  obtain ⟨m₂, hm₂, rfl⟩ := h₂.exists_mismatch hload₂
  rw [hsecret₁.settings_eq_error_iff] at hm₁
  rw [hsecret₂.settings_eq_error_iff] at hm₂
  rcases h with ⟨m, hm⟩ | ⟨⟨t₁, rfl⟩, ⟨t₂, rfl⟩⟩
  · rw [hsecret₁.takeWhile_eq, foldlM_takeEntry_eq_error_iff] at hm
    rw [hm] at hbefore hm₁
    obtain ⟨m', hm', hlike⟩ := hbefore.exists_of_some
    rw [hm'] at hm₂
    cases hm₁
    cases hm₂
    exact report_eq_of_like hlike
  · have hrel := hbefore.or hafter
    rw [fault?_secret hsecret₁.key, Option.none_or] at hm₁
    rw [fault?_secret hsecret₂.key, Option.none_or] at hm₂
    rw [hm₁, hm₂] at hrel
    obtain ⟨_, heq, hlike⟩ := hrel.exists_of_some
    cases heq
    exact report_eq_of_like hlike

/-- A log does not show what is refused elsewhere as it shows a secret. -/
theorem logged_ne_of_like {hs₁ : '\n' ∉ s₁} {hs₂ : '\n' ∉ s₂} {m₁ m₂ : Mismatch}
    (h : m₁.Like (elsewhere pre post hs₁ hs₂) m₂) {found : Shape.Found} {s : List Char}
    (hs : '\n' ∉ s) :
    logged (Report.wrongShape m₁.found m₁.wanted (.of (pre ++ s₁ ++ post) m₁.span)).text.toList ≠
      logged (Report.wrongShape found .text
        (.of (pre ++ s ++ post) ⟨s ++ post, post⟩)).text.toList := fun heq =>
  h.span.2 ((line_eq_of_logged_eq heq).trans (excerpt_of hs pre post).1)

/-- Of two such files that a log shows alike, the secrets leave no trace. -/
theorem seenAlike_of_logged_eq (h₁ : SecretFile pre post v₁ s₁ table₁ files₁ path)
    (h₂ : SecretFile pre post v₂ s₂ table₂ files₂ path)
    (hload₁ : Settings.load files₁ path = .error (.toml r₁))
    (hload₂ : Settings.load files₂ path = .error (.toml r₂))
    (h : logged r₁.text.toList = logged r₂.text.toList) : SeenAlike table₁ v₁ v₂ s₁ s₂ := by
  obtain ⟨before₁, key₁, after₁, before₂, key₂, after₂, hsecret₁, hsecret₂, hbefore, hafter⟩ :=
    exists_hasSecret h₁ h₂
  cases hb₁ : before₁.findSome? fault? with
  | some m =>
    refine @SeenAlike.before _ _ _ _ _ m ?_
    rw [hsecret₁.takeWhile_eq, foldlM_takeEntry_eq_error_iff, hb₁]
  | none =>
    rw [hb₁] at hbefore
    have hb₂ : before₂.findSome? fault? = none := hbefore.eq_none
    by_cases hv₁ : ∃ t, v₁ = .text t <;> by_cases hv₂ : ∃ t, v₂ = .text t
    -- both are texts
    · exact .behind hv₁.choose_spec hv₂.choose_spec
    -- one of them is a text, so that something behind it is refused
    · obtain ⟨t, rfl⟩ := hv₁
      obtain ⟨m₁, hm₁, rfl⟩ := h₁.refused_behind hload₁ hsecret₁ hb₁
      rw [hm₁] at hafter
      obtain ⟨m₂, -, hlike⟩ := hafter.exists_of_some
      rw [h₂.refused_itself hload₂ hsecret₂ hb₂ (not_exists.1 hv₂)] at h
      exact absurd h (logged_ne_of_like hlike h₂.line)
    · obtain ⟨t, rfl⟩ := hv₂
      obtain ⟨m₂, hm₂, rfl⟩ := h₂.refused_behind hload₂ hsecret₂ hb₂
      rw [hm₂] at hafter
      obtain ⟨m₁, -, hlike⟩ := hafter.exists_of_some_right
      rw [h₁.refused_itself hload₁ hsecret₁ hb₁ (not_exists.1 hv₁), ← report_eq_of_like hlike] at h
      exact absurd h.symm (logged_ne_of_like hlike h₁.line)
    -- none is
    · have hv₁ := not_exists.1 hv₁
      have hv₂ := not_exists.1 hv₂
      rw [h₁.refused_itself hload₁ hsecret₁ hb₁ hv₁,
        h₂.refused_itself hload₂ hsecret₂ hb₂ hv₂] at h
      exact .itself (eq_of_logged_itself (noControl_of_readScalar hv₁ h₁.written)
        (noControl_of_readScalar hv₂ h₂.written) h)

/-- Files with the same document in them are reported alike. -/
theorem report_eq (h₁ : SecretFile pre post v₁ s table₁ files₁ path)
    (h₂ : SecretFile pre post v₂ s table₂ files₂ path)
    (hload₁ : Settings.load files₁ path = .error (.toml r₁))
    (hload₂ : Settings.load files₂ path = .error (.toml r₂)) : r₁ = r₂ := by
  have hload : Settings.load files₁ path = Settings.load files₂ path := by
    rw [Settings.load_toml_text h₁.notJson h₁.file, Settings.load_toml_text h₂.notJson h₂.file]
  rw [hload₁, hload₂] at hload
  exact Refusal.toml.inj (Except.error.inj hload)

/-- Two files that differ in the secret only, by values without parts on one line, and that are both
refused for the shape of a value: the log shows the messages alike if and only if the values leave
no trace in them, and then they are the same. -/
theorem logged_text_eq_iff (h₁ : SecretFile pre post v₁ s₁ table₁ files₁ path)
    (h₂ : SecretFile pre post v₂ s₂ table₂ files₂ path)
    (hload₁ : Settings.load files₁ path = .error (.toml r₁))
    (hload₂ : Settings.load files₂ path = .error (.toml r₂)) :
    (SeenAlike table₁ v₁ v₂ s₁ s₂ → r₁ = r₂) ∧
      (logged r₁.text.toList = logged r₂.text.toList ↔ SeenAlike table₁ v₁ v₂ s₁ s₂) := by
  have hsame : SeenAlike table₁ v₁ v₂ s₁ s₂ → r₁ = r₂ := by
    intro h
    cases h with
    | before h => exact eq_of_refused_elsewhere h₁ h₂ hload₁ hload₂ (.inl ⟨_, h⟩)
    | behind hv₁ hv₂ =>
      exact eq_of_refused_elsewhere h₁ h₂ hload₁ hload₂ (.inr ⟨⟨_, hv₁⟩, ⟨_, hv₂⟩⟩)
    | itself h =>
      subst h
      exact report_eq h₁ h₂ hload₁ hload₂
  exact ⟨hsame, seenAlike_of_logged_eq h₁ h₂ hload₁ hload₂, fun h => by rw [hsame h]⟩

/-- What is refused behind a secret that is a text shows nothing of it. -/
example : Settings.ofToml "secret = 'abc'\nid = 5\n".toList =
    .error (.wrongShape (.integer 5) .text ⟨2, 5, "id = 5".toList, 1⟩) := by
  decide +kernel

end Pair

end BrokerAgent.Toml
