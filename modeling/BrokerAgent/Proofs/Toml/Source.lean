import BrokerAgent.Toml.Document
import Mathlib.Data.List.Nodup

/-!
# Where the values of a document come from

A value without parts that is an entry of the document's own table was assigned to a key of one part
before any header (`exists_assignment`). Everything else that is done to that table puts tables into
it or leaves it alone: it rearranges the table (`Building.step_cases`). Either keeps its names apart
(`distinct_of_document`).
-/

namespace BrokerAgent.Toml

/-- A statement that begins a table. -/
def Statement.IsHeader : Statement → Prop
  | .header .. => True
  | .assignment .. => False

namespace Table

/-- No name is given twice. -/
def Distinct (t : Table) : Prop :=
  (t.entries.map (·.1.name)).Nodup

/-- What a change does that gives no key a value without parts. -/
structure Rearranged (t t' : Table) : Prop where
  scalar : ∀ {k v sp}, (k, .scalar v sp) ∈ t'.entries → (k, .scalar v sp) ∈ t.entries
  distinct : t.Distinct → t'.Distinct

theorem Rearranged.refl (t : Table) : t.Rearranged t :=
  ⟨id, id⟩

theorem Rearranged.trans {t₁ t₂ t₃ : Table} (h : t₁.Rearranged t₂) (h' : t₂.Rearranged t₃) :
    t₁.Rearranged t₃ :=
  ⟨h.scalar ∘ h'.scalar, h'.distinct ∘ h.distinct⟩

variable {α : Type} {t t' : Table} {a : α} {key : Key} {node : Node} {name : List Char}

/-! ## Changes of entries -/

/-- A name that has no value is none of the names. -/
theorem not_mem_names (h : t.get? name = none) : name ∉ t.entries.map (·.1.name) := by
  intro hmem
  obtain ⟨entry, hentry, hname⟩ := List.mem_map.1 hmem
  have hnone := List.find?_eq_none.1 (Option.map_eq_none_iff.1 h) entry hentry
  exact hnone (decide_eq_true hname)

/-- A name that is not there may be added. -/
theorem Distinct.append (h : t.Distinct) (hname : t.get? key.name = none) :
    (t.append key node).Distinct := by
  have hnames : (t.append key node).entries.map (·.1.name) =
      t.entries.map (·.1.name) ++ [key.name] := List.map_append
  rw [Distinct, hnames]
  exact List.Nodup.append h (List.nodup_singleton _)
    (List.disjoint_singleton.2 (not_mem_names hname))

theorem mem_append {k : Key} {n : Node} (h : (k, n) ∈ (t.append key node).entries) :
    (k, n) ∈ t.entries ∨ key = k ∧ node = n := by
  rcases List.mem_append.1 h with h | h
  · exact .inl h
  · obtain ⟨rfl, rfl⟩ := Prod.mk.inj (List.mem_singleton.1 h)
    exact .inr ⟨rfl, rfl⟩

/-- A name that was not there may be given something with parts. -/
theorem rearranged_append (hname : t.get? key.name = none) (hnode : ∀ v sp, node ≠ .scalar v sp) :
    t.Rearranged (t.append key node) where
  scalar hmem := (mem_append hmem).resolve_right fun h => hnode _ _ h.2
  distinct h := h.append hname

/-- A value may be replaced by something with parts. -/
theorem rearranged_replace (name : List Char) (hnode : ∀ v sp, node ≠ .scalar v sp) :
    t.Rearranged (t.replace name node) where
  scalar hmem := by
    obtain ⟨⟨k', n'⟩, hmem, heq⟩ := List.mem_map.1 hmem
    split at heq
    · exact absurd (Prod.mk.inj heq).2 (hnode _ _)
    · exact heq ▸ hmem
  distinct h := by
    have hnames : (t.replace name node).entries.map (·.1.name) = t.entries.map (·.1.name) := by
      refine (List.map_map).trans (List.map_congr_left fun entry _ => ?_)
      dsimp only [Function.comp]
      split <;> rfl
    rw [Distinct, hnames]
    exact h

/-- A name may be removed. -/
theorem rearranged_erase (name : List Char) : t.Rearranged (t.erase name) where
  scalar hmem := (List.mem_filter.1 hmem).1
  distinct h := h.sublist ((List.filter_sublist).map _)

/-! ## Paths -/

/-- A change further inside rearranges the table. -/
theorem rearranged_of_modify_cons {edit : Table → Option (α × Table)} {dotted : Bool}
    {path : List Key} (h : t.modify dotted edit (key :: path) = some (a, t')) :
    t.Rearranged t' := by
  rw [modify] at h
  split at h
  · rename_i hname
    obtain ⟨⟨b, new⟩, -, heq⟩ := Option.bind_eq_some_iff.1 h
    cases heq
    exact rearranged_append hname (by simp)
  · obtain ⟨-, h⟩ := Option.ite_none_right_eq_some.1 h
    obtain ⟨⟨b, new⟩, -, heq⟩ := Option.bind_eq_some_iff.1 h
    cases heq
    exact rearranged_replace _ (by simp)
  · obtain ⟨⟨b, new⟩, -, heq⟩ := Option.bind_eq_some_iff.1 h
    cases heq
    exact rearranged_replace _ (by simp)
  · cases h

/-- A change at the end of a path rearranges the table if it rearranges what is there. -/
theorem rearranged_of_modify {edit : Table → Option (α × Table)} {dotted : Bool}
    {path : List Key}
    (hedit : ∀ {t t' : Table} {a : α}, edit t = some (a, t') → t.Rearranged t')
    (h : t.modify dotted edit path = some (a, t')) : t.Rearranged t' := by
  cases path with
  | nil => exact hedit h
  | cons => exact rearranged_of_modify_cons h

/-- An assignment rearranges the table or adds a name that was not there. -/
theorem assign_cases {path : List Key} (h : t.assign path key node = some t') :
    t.Rearranged t' ∨ path = [] ∧ t.get? key.name = none ∧ t' = t.append key node := by
  obtain ⟨⟨_, _⟩, hmodify, rfl⟩ := Option.map_eq_some_iff.1 h
  cases path with
  | nil =>
    rw [modify, addEntry] at hmodify
    split at hmodify
    · cases hmodify
    split at hmodify
    · cases hmodify
    · rename_i hname
      cases hmodify
      exact .inr ⟨rfl, Option.not_isSome_iff_eq_none.1 hname, rfl⟩
  | cons => exact .inl (rearranged_of_modify_cons hmodify)

end Table

namespace Building

variable {b b' : Building} {st : Statement} {t : Table}

/-- The document's own table. -/
def top (b : Building) : Table :=
  match b.header with
  | none => b.current
  | some _ => b.root

/-- To put a table into another rearranges that one. -/
theorem rearranged_of_attach {repeatable : Bool} {key : Key} {child parent parent' : Table}
    {u : Unit} (h : attach repeatable key child parent = some (u, parent')) :
    parent.Rearranged parent' := by
  unfold attach at h
  split at h
  · cases h
    exact Table.rearranged_append ‹_› (by simp)
  · cases h
    exact Table.rearranged_append ‹_› (by simp)
  · cases h
    exact Table.rearranged_replace _ (by simp)
  · cases h

/-- So does taking it out. -/
theorem rearranged_of_detach {repeatable : Bool} {key : Key} {parent parent' : Table}
    {entries : List (Key × Node)} (h : detach repeatable key parent = some (entries, parent')) :
    parent.Rearranged parent' := by
  unfold detach at h
  split at h
  · cases h
    exact .refl _
  · split at h
    · cases h
      exact Table.rearranged_erase _
    · cases h
  · cases h
    exact .refl _
  · cases h

/-- To complete what has been built rearranges the document's own table. -/
theorem rearranged_of_finish (h : b.finish = some t) : b.top.Rearranged t := by
  unfold finish at h
  unfold top
  split at h
  · rename_i hheader
    cases h
    rw [hheader]
    exact .refl _
  · rename_i hheader
    obtain ⟨⟨_, _⟩, hmodify, rfl⟩ := Option.map_eq_some_iff.1 h
    rw [hheader]
    exact Table.rearranged_of_modify rearranged_of_attach hmodify

/-- A statement rearranges the document's own table or adds a name to it that was not there. The
latter is done by an assignment before any header. -/
theorem step_cases (h : b.step st = some b') :
    b.top.Rearranged b'.top ∨ b.header = none ∧ ∃ key node stop,
      st = .assignment ⟨[], key, node⟩ stop ∧ b.top.get? key.name = none ∧
        b'.top.entries = (b.top.append key node).entries := by
  cases st with
  | header repeatable path key span =>
    obtain ⟨root, hfinish, h⟩ := Option.bind_eq_some_iff.1 h
    obtain ⟨⟨entries, root'⟩, hmodify, heq⟩ := Option.bind_eq_some_iff.1 h
    cases heq
    exact .inl ((rearranged_of_finish hfinish).trans
      (Table.rearranged_of_modify rearranged_of_detach hmodify))
  | assignment a stop =>
    obtain ⟨current, hassign, heq⟩ := Option.bind_eq_some_iff.1 h
    cases heq
    unfold top
    cases hheader : b.header with
    | none =>
      rcases Table.assign_cases hassign with hcurrent | ⟨hpath, hname, rfl⟩
      · exact .inl ⟨hcurrent.scalar, hcurrent.distinct⟩
      · obtain ⟨path, key, node⟩ := a
        cases hpath
        exact .inr ⟨rfl, key, node, stop, rfl, hname, rfl⟩
    | some => exact .inl (.refl _)

/-- One statement adds one value without parts at most, and none below a header. -/
theorem mem_top_of_step {k : Key} {v : Scalar} {sp : Span} (h : b.step st = some b')
    (hmem : (k, .scalar v sp) ∈ b'.top.entries) :
    (k, .scalar v sp) ∈ b.top.entries ∨
      b.header = none ∧ ∃ stop, st = .assignment ⟨[], k, .scalar v sp⟩ stop := by
  rcases step_cases h with htop | ⟨hheader, key, node, stop, rfl, -, hentries⟩
  · exact .inl (htop.scalar hmem)
  · rw [hentries] at hmem
    refine (Table.mem_append hmem).imp_right fun ⟨hkey, hnode⟩ => ⟨hheader, stop, ?_⟩
    rw [hkey, hnode]

/-- A statement gives no name twice. -/
theorem distinct_of_step (h : b.step st = some b') (hb : b.top.Distinct) : b'.top.Distinct := by
  rcases step_cases h with htop | ⟨-, key, node, stop, rfl, hname, hentries⟩
  · exact htop.distinct hb
  · rw [Table.Distinct, hentries]
    exact hb.append hname

/-- Where no header has come, the statement was none. -/
theorem header_of_step (h : b.step st = some b') (hb' : b'.header = none) :
    b.header = none ∧ ¬ st.IsHeader := by
  cases st with
  | header =>
    obtain ⟨root, -, h⟩ := Option.bind_eq_some_iff.1 h
    obtain ⟨_, -, heq⟩ := Option.bind_eq_some_iff.1 h
    cases heq
    cases hb'
  | assignment =>
    obtain ⟨_, -, heq⟩ := Option.bind_eq_some_iff.1 h
    cases heq
    exact ⟨hb', id⟩

/-- A value without parts was there, or one of several statements assigned it and no header came
before. -/
theorem mem_top_of_foldlM {k : Key} {v : Scalar} {sp : Span} {sts : List Statement}
    (h : sts.foldlM step b = some b') (hmem : (k, .scalar v sp) ∈ b'.top.entries) :
    (k, .scalar v sp) ∈ b.top.entries ∨
      b.header = none ∧ ∃ above stop below,
        sts = above ++ .assignment ⟨[], k, .scalar v sp⟩ stop :: below ∧
        ∀ st ∈ above, ¬ st.IsHeader := by
  induction sts generalizing b with
  | nil =>
    cases h
    exact .inl hmem
  | cons st sts ih =>
    rw [List.foldlM_cons] at h
    obtain ⟨b₁, hstep, h⟩ := Option.bind_eq_some_iff.1 h
    rcases ih h with hmem | ⟨hheader, above, stop, below, rfl, habove⟩
    · refine (mem_top_of_step hstep hmem).imp_right fun ⟨hheader, stop, hst⟩ => ?_
      exact ⟨hheader, [], stop, sts, by rw [hst]; rfl, by simp⟩
    · obtain ⟨hb, hst⟩ := header_of_step hstep hheader
      exact .inr ⟨hb, st :: above, stop, below, rfl, List.forall_mem_cons.2 ⟨hst, habove⟩⟩

theorem distinct_of_foldlM {sts : List Statement} (h : sts.foldlM step b = some b')
    (hb : b.top.Distinct) : b'.top.Distinct := by
  induction sts generalizing b with
  | nil =>
    cases h
    exact hb
  | cons st sts ih =>
    rw [List.foldlM_cons] at h
    obtain ⟨b₁, hstep, h⟩ := Option.bind_eq_some_iff.1 h
    exact ih h (distinct_of_step hstep hb)

end Building

/-- A value without parts in the document's own table was assigned before any header. -/
theorem exists_assignment {sts : List Statement} {t : Table} {k : Key} {v : Scalar} {sp : Span}
    (h : Table.ofStatements sts = some t) (hmem : (k, .scalar v sp) ∈ t.entries) :
    ∃ above stop below, sts = above ++ .assignment ⟨[], k, .scalar v sp⟩ stop :: below ∧
      ∀ st ∈ above, ¬ st.IsHeader := by
  obtain ⟨b, hfold, hfinish⟩ := Option.bind_eq_some_iff.1 h
  have hmem := (Building.rearranged_of_finish hfinish).scalar hmem
  rcases Building.mem_top_of_foldlM hfold hmem with h | h
  · cases h
  · exact h.2

/-- A document gives no name of its own table twice. -/
theorem distinct_of_document {text : List Char} {t : Table} (h : document text = some t) :
    t.Distinct := by
  obtain ⟨sts, -, hbuild⟩ := Option.bind_eq_some_iff.1 h
  obtain ⟨b, hfold, hfinish⟩ := Option.bind_eq_some_iff.1 hbuild
  exact (Building.rearranged_of_finish hfinish).distinct
    (Building.distinct_of_foldlM hfold List.nodup_nil)

end BrokerAgent.Toml
