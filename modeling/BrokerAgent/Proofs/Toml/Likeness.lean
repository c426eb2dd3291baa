import BrokerAgent.Proofs.Toml.Lockstep
import BrokerAgent.Toml.Document

/-!
# Documents that are alike

Two documents may differ in where their keys and values stand and in the values of a key that is
left free. Otherwise they are alike when their tables have like entries in the same order. All that
is done to build a table keeps this: a statement that is alike makes of what is alike something that
is alike again (`Building.Like.step`).
-/

namespace BrokerAgent.Toml

/-- In what two documents may differ: which stretches of them correspond, and among these the ones
that tables with headers may take, so that a stretch from the beginning of one such table to the end
of another is among them too; and which keys may have any values without parts. -/
structure Likeness where
  span : Span → Span → Prop
  header : Span → Span → Prop
  free : List Char → Prop
  span_of_header : ∀ {a b}, header a b → span a b
  header_join : ∀ {a b a' b'}, header a b → header a' b' →
    header ⟨a.start, a'.stop⟩ ⟨b.start, b'.stop⟩

variable {A : Likeness}

/-- Keys of the same name. Where a free key stands does not matter. -/
structure Key.Like (A : Likeness) (k k' : Key) : Prop where
  name : k.name = k'.name
  span : A.free k.name ∨ A.span k.span k'.span

mutual

/-- Values that are the same but for where they stand. -/
inductive Node.Like (A : Likeness) : Node → Node → Prop
  | scalar {a b : Span} (v : Scalar) (h : A.span a b) : Node.Like A (.scalar v a) (.scalar v b)
  | list {items items' : List Node} {a b : Span} (hitems : List.Forall₂ (Node.Like A) items items')
      (h : A.span a b) : Node.Like A (.list items a) (.list items' b)
  | table {t t' : Table} (h : Table.Like A A.span t t') : Node.Like A (.table t) (.table t')
  | tables {earlier earlier' : List Table} {last last' : Table}
      (hearlier : List.Forall₂ (Table.Like A A.header) earlier earlier')
      (h : Table.Like A A.header last last') :
      Node.Like A (.tables earlier last) (.tables earlier' last')

/-- Tables of the same origin with like entries. Where they stand as a whole is related in a way of
its own. -/
inductive Table.Like (A : Likeness) : (Span → Span → Prop) → Table → Table → Prop
  | mk {S : Span → Span → Prop} {t t' : Table} (horigin : t.origin = t'.origin)
      (hspan : Option.Rel S t.span? t'.span?)
      (hentries : List.Forall₂ (EntryLike A) t.entries t'.entries) : Table.Like A S t t'

/-- Entries of the same name with like values, or with any values without parts if the key is free.
-/
inductive EntryLike (A : Likeness) : Key × Node → Key × Node → Prop
  | like {k k' : Key} {n n' : Node} (hk : k.Like A k') (h : Node.Like A n n') :
      EntryLike A (k, n) (k', n')
  | free {k k' : Key} {a b : Span} (v v' : Scalar) (hk : k.Like A k') (h : A.free k.name) :
      EntryLike A (k, .scalar v a) (k', .scalar v' b)

end

/-- Like entries have like keys. -/
theorem EntryLike.key {e e' : Key × Node} (h : EntryLike A e e') : e.1.Like A e'.1 := by
  cases h with
  | like hk _ => exact hk
  | free _ _ hk _ => exact hk

namespace Table.Like

variable {S S' : Span → Span → Prop} {t t' : Table}

theorem origin (h : t.Like A S t') : t.origin = t'.origin := by
  cases h with
  | mk horigin _ _ => exact horigin

theorem span (h : t.Like A S t') : Option.Rel S t.span? t'.span? := by
  cases h with
  | mk _ hspan _ => exact hspan

theorem entries (h : t.Like A S t') : List.Forall₂ (EntryLike A) t.entries t'.entries := by
  cases h with
  | mk _ _ hentries => exact hentries

/-- Where the tables stand may be related in a weaker way. -/
theorem imp (h : t.Like A S t') (hS : ∀ a b, S a b → S' a b) : t.Like A S' t' :=
  .mk h.origin (h.span.imp hS) h.entries

end Table.Like

/-- Values that are alike, or both without parts. -/
def Node.Meets (A : Likeness) (n n' : Node) : Prop :=
  Node.Like A n n' ∨ ∃ v a v' b, n = .scalar v a ∧ n' = .scalar v' b

/-- Change made to one table and to another, which gives related results. -/
def Edits (A : Likeness) {α β : Type} (R : α → β → Prop) (edit : Table → Option (α × Table))
    (edit' : Table → Option (β × Table)) : Prop :=
  ∀ (S : Span → Span → Prop) (t t' : Table), t.Like A S t' →
    Option.Rel (fun p q => R p.1 q.1 ∧ p.2.Like A S q.2) (edit t) (edit' t')

namespace Table

variable {S : Span → Span → Prop} {t t' : Table} {k k' : Key} {n n' : Node}

/-! ## Entries -/

/-- Like tables have like values of each name, or values without parts of a free one. -/
theorem Like.get? (h : t.Like A S t') (name : List Char) :
    Option.Rel (Node.Meets A) (t.get? name) (t'.get? name) := by
  have hfind : ∀ {es es' : List (Key × Node)}, List.Forall₂ (EntryLike A) es es' →
      Option.Rel (EntryLike A) (es.find? fun e => e.1.name = name)
        (es'.find? fun e => e.1.name = name) := by
    intro es es' hes
    induction hes with
    | nil => exact .none
    | cons he _ ih =>
      rw [List.find?_cons, List.find?_cons, he.key.name]
      split
      · exact .some he
      · exact ih
  refine (hfind h.entries).map fun e e' he => ?_
  cases he with
  | like _ h => exact .inl h
  | free => exact .inr ⟨_, _, _, _, rfl, rfl⟩

/-- Tables without entries are alike. -/
theorem like_empty (origin : Origin) {span span' : Option Span} (h : Option.Rel S span span') :
    (empty origin span).Like A S (empty origin span') :=
  .mk rfl h .nil

/-- Tables stay alike when like entries are added. -/
theorem Like.append (h : t.Like A S t') (he : EntryLike A (k, n) (k', n')) :
    (t.append k n).Like A S (t'.append k' n') :=
  .mk h.origin h.span (List.rel_append h.entries (.cons he .nil))

/-- They stay alike when values are replaced by like ones. -/
theorem Like.replace (h : t.Like A S t') (name : List Char) (hn : Node.Like A n n') :
    (t.replace name n).Like A S (t'.replace name n') := by
  refine .mk h.origin h.span (List.rel_map (fun e e' he => ?_) h.entries)
  rw [he.key.name]
  split
  · exact .like he.key hn
  · exact he

/-- They stay alike when a name is removed. -/
theorem Like.erase (h : t.Like A S t') (name : List Char) :
    (t.erase name).Like A S (t'.erase name) := by
  refine .mk h.origin h.span (List.rel_filter (fun e e' he => ?_) h.entries)
  dsimp only
  rw [he.key.name]

theorem Like.admitsDotted (h : t.Like A S t') : t.admitsDotted = t'.admitsDotted := by
  rw [Table.admitsDotted, Table.admitsDotted, h.origin]

/-! ## Paths -/

/-- What is done to like tables at the ends of like paths leaves like tables. -/
theorem Like.modify {α β : Type} {R : α → β → Prop} {edit : Table → Option (α × Table)}
    {edit' : Table → Option (β × Table)} (hedit : Edits A R edit edit') (dotted : Bool)
    {path path' : List Key} (hpath : List.Forall₂ (Key.Like A) path path')
    (h : t.Like A S t') :
    Option.Rel (fun p q => R p.1 q.1 ∧ p.2.Like A S q.2) (t.modify dotted edit path)
      (t'.modify dotted edit' path') := by
  induction hpath generalizing S t t' with
  | nil => exact hedit _ _ _ h
  | @cons k k' path path' hk _ ih =>
    have hget := h.get? k.name
    rw [hk.name] at hget
    rw [Table.modify, Table.modify, hk.name]
    generalize t.get? k'.name = o, t'.get? k'.name = o' at hget ⊢
    cases hget with
    | none =>
      have hnew : ∀ origin, (empty origin none).Like A A.span (empty origin none) :=
        fun origin => like_empty origin .none
      refine (ih (hnew _)).bind fun p q hpq => ?_
      exact .some ⟨hpq.1, h.append (.like hk (.table hpq.2))⟩
    | some hmeets =>
      rcases hmeets with hlike | ⟨v, a, v', b, rfl, rfl⟩
      · cases hlike with
        | scalar | list => exact .none
        | @table inner inner' hinner =>
          dsimp only
          rw [hinner.admitsDotted, hinner.origin]
          refine .guard ((ih hinner).bind fun p q hpq => ?_)
          exact .some ⟨hpq.1, h.replace _ (.table hpq.2)⟩
        | tables hearlier hlast =>
          refine (ih hlast).bind fun p q hpq => ?_
          exact .some ⟨hpq.1, h.replace _ (.tables hearlier hpq.2)⟩
      · exact .none

/-- Like entries are added to like tables or to neither. -/
theorem edits_addEntry (plain : Bool) (he : EntryLike A (k, n) (k', n')) :
    Edits A (fun _ _ => True) (addEntry plain k n) (addEntry plain k' n') := by
  intro S t t' h
  have hget := h.get? k.name
  have hname : k.name = k'.name := he.key.name
  unfold addEntry
  rw [h.origin, ← hname]
  generalize t.get? k.name = o, t'.get? k.name = o' at hget ⊢
  split
  · exact .none
  · cases hget with
    | none => exact .some ⟨trivial, h.append he⟩
    | some => exact .none

/-- Like assignments are made in like tables or in neither. -/
theorem Like.assign {path path' : List Key} (h : t.Like A S t')
    (hpath : List.Forall₂ (Key.Like A) path path') (he : EntryLike A (k, n) (k', n')) :
    Option.Rel (Like A S) (t.assign path k n) (t'.assign path' k' n') := by
  have hplain : path.isEmpty = path'.isEmpty := by
    cases hpath <;> rfl
  unfold Table.assign
  rw [hplain]
  exact (h.modify (edits_addEntry path'.isEmpty he) true hpath).map fun p q hpq => hpq.2

end Table

/-! ## Assignments -/

/-- Assignments of like values to like keys. -/
structure Assignment.Like (A : Likeness) (a a' : Assignment) : Prop where
  path : List.Forall₂ (Key.Like A) a.path a'.path
  entry : EntryLike A (a.key, a.value) (a'.key, a'.value)

theorem Assignment.Like.of {path path' : List Key} {key key' : Key} {n n' : Node}
    (hpath : List.Forall₂ (Key.Like A) path path') (hkey : key.Like A key')
    (hn : Node.Like A n n') : Assignment.Like A ⟨path, key, n⟩ ⟨path', key', n'⟩ :=
  ⟨hpath, .like hkey hn⟩

/-- So are several of them. -/
theorem Table.Like.assignAll {S : Span → Span → Prop} {t t' : Table}
    {assignments assignments' : List Assignment} (h : t.Like A S t')
    (has : List.Forall₂ (Assignment.Like A) assignments assignments') :
    Option.Rel (Like A S) (t.assignAll assignments) (t'.assignAll assignments') :=
  .foldlM has (fun h ha => h.assign ha.path ha.entry) h

/-! ## Statements -/

/-- Statements that are alike, where `L` says which of their points belong together. -/
inductive Statement.Like (A : Likeness) (L : Lockstep) : Statement → Statement → Prop
  | header {repeatable : Bool} {path path' : List Key} {key key' : Key} {span span' : Span}
      (hpath : List.Forall₂ (Key.Like A) path path') (hkey : key.Like A key')
      (hstart : L.Together span.start span'.start) (hstop : L.Together span.stop span'.stop) :
      Statement.Like A L (.header repeatable path key span) (.header repeatable path' key' span')
  | assignment {a a' : Assignment} {stop stop' : List Char} (h : a.Like A a')
      (hstop : L.Together stop stop') :
      Statement.Like A L (.assignment a stop) (.assignment a' stop')

/-- Headers that are alike, if there are any. -/
inductive HeaderLike (A : Likeness) :
    Option (Bool × List Key × Key) → Option (Bool × List Key × Key) → Prop
  | none : HeaderLike A none none
  | some {repeatable : Bool} {path path' : List Key} {key key' : Key}
      (hpath : List.Forall₂ (Key.Like A) path path') (hkey : key.Like A key') :
      HeaderLike A (some (repeatable, path, key)) (some (repeatable, path', key'))

/-- Stretches whose ends belong together. -/
def Lockstep.Along (L : Lockstep) (a b : Span) : Prop :=
  L.Together a.start b.start ∧ L.Together a.stop b.stop

/-- What has been built of two documents that are alike. Where the tables stand that assignments go
to is related in a way of its own, since they may grow yet. -/
structure Building.Like (A : Likeness) (S : Span → Span → Prop) (b b' : Building) : Prop where
  root : b.root.Like A A.span b'.root
  header : HeaderLike A b.header b'.header
  current : b.current.Like A S b'.current

namespace Building

variable {L : Lockstep} {S : Span → Span → Prop} {b b' : Building} {st st' : Statement}

/-- Like tables are put into like tables or into neither. -/
theorem edits_attach (repeatable : Bool) {key key' : Key} {child child' : Table}
    (hk : key.Like A key')
    (h : Table.Like A A.header child child') :
    Edits A (fun _ _ => True) (attach repeatable key child) (attach repeatable key' child') := by
  intro S t t' ht
  have hget := ht.get? key.name
  unfold attach
  rw [← hk.name]
  generalize t.get? key.name = o, t'.get? key.name = o' at hget ⊢
  cases hget with
  | none =>
    cases repeatable with
    | false =>
      have hchild := h.imp fun _ _ => A.span_of_header
      exact .some ⟨trivial, ht.append (.like hk (.table hchild))⟩
    | true => exact .some ⟨trivial, ht.append (.like hk (.tables .nil h))⟩
  | some hmeets =>
    rcases hmeets with hlike | ⟨v, a, v', b, rfl, rfl⟩
    · cases hlike with
      | scalar | list | table => cases repeatable <;> exact .none
      | tables hearlier hlast =>
        cases repeatable with
        | false => exact .none
        | true =>
          have hall := List.rel_append hearlier (.cons hlast .nil)
          exact .some ⟨trivial, ht.replace _ (.tables hall h)⟩
    · cases repeatable <;> exact .none

/-- They are taken out alike. -/
theorem edits_detach (repeatable : Bool) {key key' : Key} (hk : key.Like A key') :
    Edits A (List.Forall₂ (EntryLike A)) (detach repeatable key) (detach repeatable key') := by
  intro S t t' ht
  have hget := ht.get? key.name
  unfold detach
  rw [← hk.name]
  generalize t.get? key.name = o, t'.get? key.name = o' at hget ⊢
  cases hget with
  | none => cases repeatable <;> exact .some ⟨.nil, ht⟩
  | some hmeets =>
    rcases hmeets with hlike | ⟨v, a, v', b, rfl, rfl⟩
    · cases hlike with
      | scalar | list => cases repeatable <;> exact .none
      | tables =>
        cases repeatable with
        | false => exact .none
        | true => exact .some ⟨.nil, ht⟩
      | table h =>
        cases repeatable with
        | true => exact .none
        | false =>
          dsimp only
          rw [h.origin]
          exact .guard (.some ⟨h.entries, ht.erase _⟩)
    · cases repeatable <;> exact .none

/-- What has been built is completed alike. -/
theorem Like.finish (hS : ∀ a a', S a a' → A.header a a') (h : b.Like A S b') :
    Option.Rel (Table.Like A A.span) b.finish b'.finish := by
  have hcurrent : b.current.Like A A.header b'.current := h.current.imp hS
  have hheader := h.header
  unfold Building.finish
  generalize b.header = o, b'.header = o' at hheader ⊢
  cases hheader with
  | none => exact .some (hcurrent.imp fun _ _ => A.span_of_header)
  | @some repeatable path path' key key' hpath hkey =>
    have hattach := edits_attach repeatable hkey hcurrent
    exact (h.root.modify hattach false hpath).map fun p q hpq => hpq.2

theorem Like.imp {S' : Span → Span → Prop} (h : b.Like A S b') (hS : ∀ x y, S x y → S' x y) :
    b.Like A S' b' :=
  ⟨h.root, h.header, h.current.imp hS⟩

/-- An assignment is taken into account alike, however the stretches grow by it. -/
theorem Like.step_assignment {a a' : Assignment} {stop stop' : List Char} (h : b.Like A S b')
    (hS : ∀ {x y}, S x y → S ⟨x.start, stop⟩ ⟨y.start, stop'⟩) (ha : a.Like A a') :
    Option.Rel (Building.Like A S) (b.step (.assignment a stop))
      (b'.step (.assignment a' stop')) := by
  have hextend : (b.current.extendTo stop).Like A S (b'.current.extendTo stop') :=
    .mk h.current.origin (h.current.span.map fun _ _ hspan => hS hspan) h.current.entries
  refine (hextend.assign ha.path ha.entry).bind fun t t' ht => ?_
  exact .some ⟨h.root, h.header, ht⟩

/-- A statement is taken into account alike. -/
theorem Like.step (hA : ∀ a a', L.Along a a' → A.header a a') (h : b.Like A L.Along b')
    (hst : st.Like A L st') : Option.Rel (Building.Like A L.Along) (b.step st) (b'.step st') := by
  cases hst with
  | @header repeatable path path' key key' span span' hpath hkey hstart hstop =>
    refine (h.finish hA).bind fun root root' hroot => ?_
    refine (hroot.modify (edits_detach repeatable hkey) false hpath).bind fun p q hpq => ?_
    exact .some ⟨hpq.2, .some hpath hkey, rfl, .some ⟨hstart, hstop⟩, hpq.1⟩
  | assignment ha hstop => exact h.step_assignment (fun hspan => ⟨hspan.1, hstop⟩) ha

theorem like_start : start.Like A S start where
  root := Table.like_empty _ .none
  header := .none
  current := Table.like_empty _ .none

end Building

end BrokerAgent.Toml
