import BrokerAgent.Proofs.Except
import BrokerAgent.Proofs.Toml.Likeness
import BrokerAgent.Toml.Settings

/-!
# What of a document is refused

The entries of a document are taken in their order, and the first one that has a value of the wrong
shape is refused, whatever was taken before it (`settings_eq_error_iff`). Entries that are alike are
refused alike (`rel_findSome?`).
-/

namespace BrokerAgent.Toml

/-! ## The first value of a wrong shape -/

/-- What is wrong with the value of an entry, if anything is. -/
def fault? (entry : Key × Node) : Option Mismatch :=
  match takeEntry {} entry with
  | .error m => some m
  | .ok _ => none

/-- What was taken before does not matter. -/
theorem takeEntry_eq_error_iff {record : Settings} {entry : Key × Node} {m : Mismatch} :
    takeEntry record entry = .error m ↔ fault? entry = some m := by
  have hstep : ∀ {α : Type} (result : Except Mismatch α) (put put' : α → Settings),
      result >>= (fun a => .ok (put a)) = .error m ↔
        (match result >>= (fun a => .ok (put' a)) with
          | .error m => some m
          | .ok _ => none) = some m := by
    intro α result put put'
    cases result with
    | error m' =>
      constructor
      all_goals
        intro h
        cases h
        rfl
    | ok a => exact ⟨nofun, nofun⟩
  obtain ⟨key, node⟩ := entry
  unfold fault? takeEntry
  dsimp only
  split
  · exact ⟨nofun, nofun⟩
  all_goals exact hstep _ _ _

/-- Of several entries the first one with a value of a wrong shape is refused. -/
theorem foldlM_takeEntry_eq_error_iff {record : Settings} {entries : List (Key × Node)}
    {m : Mismatch} :
    entries.foldlM takeEntry record = .error m ↔ entries.findSome? fault? = some m := by
  induction entries generalizing record with
  | nil => exact ⟨nofun, nofun⟩
  | cons entry entries ih =>
    rw [List.foldlM_cons, bind_eq_error, takeEntry_eq_error_iff, List.findSome?_cons]
    cases hfault : fault? entry with
    | some m' => simp [takeEntry_eq_error_iff.2 hfault]
    | none =>
      have hok : ∃ next, takeEntry record entry = .ok next := by
        cases htake : takeEntry record entry with
        | ok next => exact ⟨next, rfl⟩
        | error m' => cases hfault.symm.trans (takeEntry_eq_error_iff.1 htake)
      obtain ⟨next, hnext⟩ := hok
      simp [hnext, ih]

/-- So the record of a document is refused for the first of these values. -/
theorem settings_eq_error_iff {t : Table} {m : Mismatch} :
    settings t = .error m ↔ t.entries.findSome? fault? = some m :=
  foldlM_takeEntry_eq_error_iff

/-- A secret is refused unless it is a text. -/
theorem fault?_secret {key : Key} {v : Scalar} (hkey : key.name = "secret".toList) (sp : Span) :
    fault? (key, .scalar v sp) =
      match v with
      | .text _ => none
      | v => some ⟨v.found, .text, sp⟩ := by
  have hfield : Field.ofName? (String.ofList key.name) = some .secret := by
    rw [hkey]
    decide
  unfold fault? takeEntry
  simp only [hfield]
  cases v <;> rfl

/-! ## Entries that are alike -/

variable {A : Likeness}

/-- The same is wrong with two values, and where they stand is related. -/
structure Mismatch.Like (A : Likeness) (m m' : Mismatch) : Prop where
  found : m.found = m'.found
  wanted : m.wanted = m'.wanted
  span : A.span m.span m'.span

/-- The same is taken, or the same is wrong. -/
inductive Taken (A : Likeness) {α : Type} : Except Mismatch α → Except Mismatch α → Prop
  | ok (a : α) : Taken A (.ok a) (.ok a)
  | error {m m' : Mismatch} (h : m.Like A m') : Taken A (.error m) (.error m')

namespace Taken

variable {α β : Type} {result result' : Except Mismatch α}

theorem bind {f f' : α → Except Mismatch β} (h : Taken A result result')
    (hf : ∀ a, Taken A (f a) (f' a)) : Taken A (result >>= f) (result' >>= f') := by
  cases h with
  | ok a => exact hf a
  | error h => exact .error h

/-- Values that are related one by one are taken alike. -/
theorem mapM {ι : Type} {R : ι → ι → Prop} {f f' : ι → Except Mismatch α} {l l' : List ι}
    (hl : List.Forall₂ R l l') (hf : ∀ {x x'}, R x x' → Taken A (f x) (f' x')) :
    Taken A (l.mapM f) (l'.mapM f') := by
  induction hl with
  | nil => exact .ok []
  | cons hx _ ih =>
    rw [List.mapM_cons, List.mapM_cons]
    exact (hf hx).bind fun a => ih.bind fun as => .ok (a :: as)

end Taken

variable {n n' : Node} {a b : Span}

/-- A table that does not stand in one piece stands at its key. -/
theorem Table.Like.getD_span {t t' : Table} (h : Table.Like A A.span t t') (hkey : A.span a b) :
    A.span (t.span?.getD a) (t'.span?.getD b) := by
  have hspan := h.span
  generalize t.span? = o, t'.span? = o' at hspan ⊢
  cases hspan with
  | none => exact hkey
  | some h => exact h

/-- The first of like tables are alike. -/
theorem headD_like {earlier earlier' : List Table} {last last' : Table}
    (hearlier : List.Forall₂ (Table.Like A A.header) earlier earlier')
    (h : Table.Like A A.header last last') :
    Table.Like A A.header (earlier.headD last) (earlier'.headD last') := by
  cases hearlier with
  | nil => exact h
  | cons h => exact h

/-- Like values stand at stretches that correspond. -/
theorem Node.Like.span (h : Node.Like A n n') (hkey : A.span a b) :
    A.span (n.span a) (n'.span b) := by
  cases h with
  | scalar v h => exact h
  | list hitems h => exact h
  | table h => exact h.getD_span hkey
  | @tables earlier earlier' last last' hearlier h =>
    have hfirst := (headD_like hearlier h).span
    have hlast := h.span
    unfold Node.span
    dsimp only
    generalize (earlier.headD last).span? = o, (earlier'.headD last').span? = o' at hfirst ⊢
    generalize last.span? = p, last'.span? = p' at hlast ⊢
    cases hfirst with
    | none => exact hkey
    | some hfirst =>
      cases hlast with
      | none => exact hkey
      | some hlast => exact A.span_of_header (A.header_join hfirst hlast)

/-- Like values are the same text or are refused alike. -/
theorem stringOf_like (h : Node.Like A n n') (hkey : A.span a b) :
    Taken A (stringOf a n) (stringOf b n') := by
  have hspan := h.span hkey
  cases h with
  | @scalar _ _ v h =>
    cases v with
    | text t => exact .ok _
    | _ => exact .error ⟨rfl, rfl, h⟩
  | list | table | tables => exact .error ⟨rfl, rfl, hspan⟩

/-- They are the same texts or are refused alike. -/
theorem stringsOf_like (h : Node.Like A n n') (hkey : A.span a b) :
    Taken A (stringsOf a n) (stringsOf b n') := by
  have hspan := h.span hkey
  cases h with
  | scalar | table => exact .error ⟨rfl, rfl, hspan⟩
  | list hitems => exact .mapM hitems fun h => stringOf_like h hkey
  | tables hearlier h =>
    have hfirst := (headD_like hearlier h).imp fun _ _ => A.span_of_header
    exact .error ⟨rfl, rfl, hfirst.getD_span hkey⟩

/-- Like entries are taken alike, unless their key is free. -/
theorem takeEntry_like {e e' : Key × Node} (h : EntryLike A e e') (hfree : ¬ A.free e.1.name)
    (record : Settings) : Taken A (takeEntry record e) (takeEntry record e') := by
  cases h with
  | free _ _ _ h => exact absurd h hfree
  | like hk h =>
    have hkey := hk.span.resolve_left hfree
    unfold takeEntry
    dsimp only
    rw [← hk.name]
    split
    · exact .ok _
    · exact (stringsOf_like h hkey).bind fun _ => .ok _
    · exact (stringsOf_like h hkey).bind fun _ => .ok _
    · exact (stringOf_like h hkey).bind fun _ => .ok _
    · exact (stringOf_like h hkey).bind fun _ => .ok _

/-- Entries that are alike are refused alike, unless they are of a free key. -/
theorem rel_findSome? {es es' : List (Key × Node)} (h : List.Forall₂ (EntryLike A) es es')
    (hfree : ∀ e ∈ es, ¬ A.free e.1.name) :
    Option.Rel (Mismatch.Like A) (es.findSome? fault?) (es'.findSome? fault?) := by
  induction h with
  | nil => exact .none
  | @cons e e' es es' he _ ih =>
    obtain ⟨hfirst, hrest⟩ := List.forall_mem_cons.1 hfree
    have htaken := takeEntry_like he hfirst {}
    rw [List.findSome?_cons, List.findSome?_cons]
    unfold fault?
    generalize takeEntry {} e = r, takeEntry {} e' = r' at htaken ⊢
    cases htaken with
    | ok => exact ih hrest
    | error h => exact .some h

end BrokerAgent.Toml
