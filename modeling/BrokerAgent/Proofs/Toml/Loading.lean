import BrokerAgent.Proofs.Toml.Lines

/-!
# Plain TOML documents are loaded like objects

The statements of a plain document all go to one table, which therefore holds its members in their
order (`ofStatements_gives`). Taking the entries of that table is the fold over the members that a
JSON object is read by (`gather`), so a plain document gives the record that its members give.
-/

namespace BrokerAgent.Toml

open Json (Gathered gather)

/-- An entry of a table for a member. -/
def Holds (entry : Key × Node) (m : List Char × Json.Value) : Prop :=
  entry.1.name = m.1 ∧ Means entry.2 m.2

/-- Entries that hold members have their names. -/
theorem names_of_holds {entries : List (Key × Node)} {ms : List (List Char × Json.Value)}
    (h : List.Forall₂ Holds entries ms) : entries.map (·.1.name) = ms.map (·.1) := by
  induction h with
  | nil => rfl
  | cons hentry _ ih => rw [List.map_cons, List.map_cons, hentry.1, ih]

/-! ## The table of a plain document -/

/-- What has been built from members: no header has come, and the table of the whole document holds
them. -/
structure Built (b : Building) (ms : List (List Char × Json.Value)) : Prop where
  header : b.header = none
  origin : b.current.origin = .header
  entries : List.Forall₂ Holds b.current.entries ms

/-- At the beginning no member is held. -/
theorem built_start : Built .start [] where
  header := rfl
  origin := rfl
  entries := .nil

/-- A name that no member has is free. -/
theorem Built.get?_eq_none {b : Building} {ms : List (List Char × Json.Value)} (h : Built b ms)
    {name : List Char} (hname : name ∉ ms.map (·.1)) : b.current.get? name = none := by
  rw [← names_of_holds h.entries] at hname
  rw [Table.get?, Option.map_eq_none_iff, List.find?_eq_none]
  intro entry hentry heq
  exact hname (List.mem_map.2 ⟨entry, hentry, of_decide_eq_true heq⟩)

/-- An assignment to a free name goes behind the other entries of a table under a header. -/
theorem assign_free {t : Table} (key : Key) (node : Node) (horigin : t.origin = .header)
    (hfree : t.get? key.name = none) :
    t.assign [] key node = some (t.append key node) := by
  have hplain : ¬ (t.origin = .dotted) = (true = true) := by
    rw [horigin]
    simp
  rw [Table.assign, Table.modify, List.isEmpty_nil, Table.addEntry, if_neg hplain, hfree]
  rfl

/-- One more member is added behind the others. -/
theorem Built.step {b : Building} {ms : List (List Char × Json.Value)} (h : Built b ms)
    {statement : Statement} {m : List Char × Json.Value} (hgives : Gives statement m)
    (hfree : m.1 ∉ ms.map (·.1)) :
    ∃ b', b.step statement = some b' ∧ Built b' (ms ++ [m]) := by
  obtain ⟨span, node, stop, rfl, hmeans⟩ := hgives
  have horigin : (b.current.extendTo stop).origin = .header := h.origin
  have hnone : (b.current.extendTo stop).get? m.1 = none := h.get?_eq_none hfree
  have hassign := assign_free ⟨m.1, span⟩ node horigin hnone
  refine ⟨{ b with current := (b.current.extendTo stop).append ⟨m.1, span⟩ node }, ?_, ?_⟩
  · rw [Building.step]
    simp only [hassign, Option.bind_eq_bind, Option.bind_some]
    rfl
  · exact ⟨h.header, h.origin, List.rel_append h.entries (.cons ⟨rfl, hmeans⟩ .nil)⟩

/-- All members are added, if no two of them have the same name. -/
theorem Built.steps {statements : List Statement} {ms done : List (List Char × Json.Value)}
    {b : Building} (h : Built b done) (hgives : List.Forall₂ Gives statements ms)
    (hd : ((done ++ ms).map (·.1)).Nodup) :
    ∃ b', statements.foldlM Building.step b = some b' ∧ Built b' (done ++ ms) := by
  induction hgives generalizing b done with
  | nil => exact ⟨b, rfl, by rwa [List.append_nil]⟩
  | @cons statement m statements ms hm hgives ih =>
    have hfree : m.1 ∉ done.map (·.1) := by
      rw [List.map_append, List.map_cons] at hd
      intro hmem
      exact (List.nodup_append.1 hd).2.2 _ hmem _ List.mem_cons_self rfl
    obtain ⟨b₁, hstep, hb₁⟩ := h.step hm hfree
    rw [← List.singleton_append, ← List.append_assoc] at hd
    obtain ⟨b₂, hsteps, hb₂⟩ := ih hb₁ hd
    refine ⟨b₂, ?_, ?_⟩
    · rw [List.foldlM_cons, hstep]
      exact hsteps
    · rwa [← List.singleton_append, ← List.append_assoc]

/-- Statements for members of different names make a table that holds them. -/
theorem ofStatements_gives {statements : List Statement} {ms : List (List Char × Json.Value)}
    (hgives : List.Forall₂ Gives statements ms) (hd : (ms.map (·.1)).Nodup) :
    ∃ table, Table.ofStatements statements = some table ∧
      List.Forall₂ Holds table.entries ms := by
  obtain ⟨b, hsteps, hbuilt⟩ := built_start.steps hgives hd
  refine ⟨b.current, ?_, hbuilt.entries⟩
  rw [Table.ofStatements, hsteps]
  simp only [Option.bind_eq_bind, Option.bind_some, Building.finish, hbuilt.header]

/-! ## The record of a plain document -/

/-- Taking an entry is taking its member. -/
theorem takeEntry_holds {entry : Key × Node} {m : List Char × Json.Value} (h : Holds entry m)
    {g g' : Gathered} (hg : g.take m = .ok g') : takeEntry g.record entry = .ok g'.record := by
  obtain ⟨key, node⟩ := entry
  obtain ⟨name, v⟩ := m
  obtain ⟨rfl, htext, htexts⟩ := h
  cases hfield : Field.ofName? (String.ofList key.name) with
  | none =>
    unfold Gathered.take at hg
    simp only [hfield] at hg
    cases hg
    simp only [takeEntry, hfield]
  | some field =>
    obtain ⟨-, hassign, -⟩ := Json.take_eq_ok hfield hg
    cases field with
    | protocols | addresses =>
      obtain ⟨texts, ht, hrecord⟩ := map_eq_ok.1 hassign
      rw [← hrecord]
      simp only [takeEntry, hfield, htexts texts key.span ht]
      rfl
    | id | secret =>
      obtain ⟨text, ht, hrecord⟩ := map_eq_ok.1 hassign
      rw [← hrecord]
      simp only [takeEntry, hfield, htext text key.span ht]
      rfl

/-- The record of entries is gathered from the members that they hold. -/
theorem settings_holds {entries : List (Key × Node)} {ms : List (List Char × Json.Value)}
    (h : List.Forall₂ Holds entries ms) {g g' : Gathered}
    (hg : ms.foldlM Gathered.take g = .ok g') :
    entries.foldlM takeEntry g.record = .ok g'.record := by
  induction h generalizing g with
  | nil =>
    cases hg
    rfl
  | cons hentry _ ih =>
    obtain ⟨next, htake, hg⟩ := Json.foldlM_take_cons hg
    rw [List.foldlM_cons, takeEntry_holds hentry htake]
    exact ih hg

/-! ## Whole texts -/

/-- A plain document does not begin with a byte order mark. -/
theorem WrittenLine.head {line : Line} {t s rest : List Char} (h : WrittenLine line t)
    (hs : Ends s rest) : (t ++ s).head? ≠ some '\uFEFF' := by
  cases h with
  | blank hb => exact head_blanks_append hb (by decide) (hs.head (by decide))
  | comment hb ht =>
    rw [List.append_assoc]
    exact head_blanks_append hb (by decide) (by simp)
  | @member b₁ key b₂ b₃ t b₄ v h₁ hkey h₂ h₃ hv h₄ =>
    simp only [List.append_assoc]
    apply head_blanks_append h₁ (by decide)
    obtain ⟨d, k, rfl, hd⟩ := hkey.exists_cons
    intro heq
    exact ne_of_isBareChar hd (by decide) (Option.some.inj heq)

/-- A text without a mark stays as it is. -/
theorem skipByteOrderMark_of_head {text : List Char} (h : text.head? ≠ some '\uFEFF') :
    skipByteOrderMark text = text := by
  unfold skipByteOrderMark
  split
  · exact absurd rfl h
  · rfl

/-- Lines begin without a mark. -/
theorem skipByteOrderMark_lines {lines : List Line} {text : List Char}
    (h : WrittenLines lines text) : skipByteOrderMark text = text := by
  apply skipByteOrderMark_of_head
  cases h with
  | nil => simp
  | last hline =>
    rw [← List.append_nil text]
    exact hline.head .document
  | cons hline he hlines =>
    rw [List.append_assoc]
    exact hline.head (.line he _)

/-- A plain document without repeated keys gives the record of its members. -/
theorem ofToml_lines {lines : List Line} {text : List Char} (h : WrittenLines lines text)
    (hd : ((members lines).map (·.1)).Nodup) {record : Settings}
    (hg : gather (members lines) = .ok record) : Settings.ofToml text = .ok record := by
  obtain ⟨statements, hread, hgives⟩ := readStatements_lines h
  obtain ⟨table, htable, hholds⟩ := ofStatements_gives hgives hd
  obtain ⟨g, hfold, rfl⟩ := Json.foldlM_of_gather hg
  have hdocument : document text = some table := by
    rw [document, skipByteOrderMark_lines h, hread]
    exact htable
  have hrecord : settings table = .ok g.record := settings_holds (g := {}) hholds hfold
  rw [Settings.ofToml, hdocument]
  simp only [hrecord]
  rfl

end BrokerAgent.Toml
