import BrokerAgent.Proofs.Json.Writing

/-!
# How plain TOML is written

A TOML document may consist of lines only that are blank, hold a comment, or give a value to a key
without quotes, and the values may be no more than texts and lists of texts. Such a document says
the same as a JSON object with these members, so the values are those of JSON, and texts are
written the way that the writer of JSON does it. Blanks may stand around every token.
-/

namespace BrokerAgent.Toml

/-- Nothing but blanks, all on one line. -/
def Blanks (s : List Char) : Prop :=
  ∀ c ∈ s, c = ' ' ∨ c = '\t'

theorem Blanks.nil : Blanks [] := by
  intro c hc
  cases hc

/-- No controls, a tab excepted. -/
def Plain (s : List Char) : Prop :=
  ∀ c ∈ s, c = '\t' ∨ ' ' ≤ c ∧ c ≠ '\x7f'

/-- A key that needs no quotes. -/
def Bare (key : List Char) : Prop :=
  key ≠ [] ∧ ∀ c ∈ key, c.isAlphanum = true ∨ c = '-' ∨ c = '_'

theorem Plain.of_all {s : List Char}
    (h : s.all (fun c => c = '\t' || (' ' ≤ c && c ≠ '\x7f')) = true) : Plain s := by
  intro c hc
  simpa using List.all_eq_true.1 h c hc

theorem Bare.of_all {key : List Char} (hne : key ≠ [])
    (h : key.all (fun c => c.isAlphanum || c = '-' || c = '_') = true) : Bare key := by
  refine ⟨hne, fun c hc => ?_⟩
  simpa [or_assoc] using List.all_eq_true.1 h c hc

/-! ## Values -/

/-- What follows an item of a list, up to the bracket that ends it. -/
inductive WrittenItems : List Json.Value → List Char → Prop
  | last {b : List Char} (hb : Blanks b) : WrittenItems [] (b ++ [']'])
  | more {b₁ b₂ t u : List Char} {vs : List Json.Value} (h₁ : Blanks b₁) (h₂ : Blanks b₂)
      (ht : '\x7f' ∉ t) (hvs : WrittenItems vs u) :
      WrittenItems (.text t :: vs) (b₁ ++ ',' :: b₂ ++ Json.writeText t ++ u)

/-- The ways to write a text or a list of texts on one line. The delete character is the only one
that a text of TOML may not hold and the writer of JSON leaves as it is. -/
inductive WrittenValue : Json.Value → List Char → Prop
  | text {t : List Char} (ht : '\x7f' ∉ t) : WrittenValue (.text t) (Json.writeText t)
  | emptyList {b : List Char} (hb : Blanks b) : WrittenValue (.list []) ('[' :: b ++ [']'])
  | list {b t u : List Char} {vs : List Json.Value} (hb : Blanks b) (ht : '\x7f' ∉ t)
      (hvs : WrittenItems vs u) :
      WrittenValue (.list (.text t :: vs)) ('[' :: b ++ Json.writeText t ++ u)

/-! ## Lines -/

/-- What a line says: nothing, or the value of a key. -/
inductive Line
  | blank
  | comment
  | member (key : List Char) (value : Json.Value)

/-- The members that lines give, in their order. -/
def members (lines : List Line) : List (List Char × Json.Value) :=
  lines.filterMap fun
    | .member key value => some (key, value)
    | _ => none

/-- The ways to write a line, without its end. -/
inductive WrittenLine : Line → List Char → Prop
  | blank {b : List Char} (hb : Blanks b) : WrittenLine .blank b
  | comment {b t : List Char} (hb : Blanks b) (ht : Plain t) : WrittenLine .comment (b ++ '#' :: t)
  | member {b₁ key b₂ b₃ t b₄ : List Char} {v : Json.Value} (h₁ : Blanks b₁) (hkey : Bare key)
      (h₂ : Blanks b₂) (h₃ : Blanks b₃) (hv : WrittenValue v t) (h₄ : Blanks b₄) :
      WrittenLine (.member key v) (b₁ ++ key ++ b₂ ++ '=' :: b₃ ++ t ++ b₄)

/-- The ends of a line in both conventions. -/
def lineEnds : List (List Char) := [['\n'], ['\r', '\n']]

/-- The ways to write a document. Its last line may lack its end. -/
inductive WrittenLines : List Line → List Char → Prop
  | nil : WrittenLines [] []
  | last {line : Line} {t : List Char} (hline : WrittenLine line t) : WrittenLines [line] t
  | cons {line : Line} {lines : List Line} {t e u : List Char} (hline : WrittenLine line t)
      (he : e ∈ lineEnds) (hlines : WrittenLines lines u) :
      WrittenLines (line :: lines) (t ++ e ++ u)

/-! ## Lines that the writer of JSON gives -/

/-- A record whose texts are free of the delete character. -/
structure Writable (s : Settings) : Prop where
  protocols : ∀ item ∈ s.protocols, '\x7f' ∉ item.toList
  addresses : ∀ item ∈ s.addresses, '\x7f' ∉ item.toList
  id : '\x7f' ∉ s.id.toList
  secret : '\x7f' ∉ s.secret.toList

/-- Texts are written as a list. -/
theorem writtenItems_compact {items : List String} (h : ∀ item ∈ items, '\x7f' ∉ item.toList)
    (depth : Nat) :
    WrittenItems (items.map fun item => .text item.toList)
      (Json.moreEntries .compact depth ']' (items.map fun item => Json.writeText item.toList)) := by
  induction items with
  | nil => exact .last Blanks.nil
  | cons item items ih =>
    obtain ⟨hitem, hitems⟩ := List.forall_mem_cons.1 h
    have hmore := WrittenItems.more Blanks.nil Blanks.nil hitem (ih hitems)
    simpa [Json.moreEntries, Json.Layout.compact] using hmore

/-- The writer of JSON writes a list of texts as TOML does, if it uses no blanks. -/
theorem writtenValue_compact {items : List String} (h : ∀ item ∈ items, '\x7f' ∉ item.toList)
    (depth : Nat) :
    WrittenValue (.list (items.map fun item => .text item.toList))
      (Json.writeList .compact depth items) := by
  cases items with
  | nil => exact .emptyList Blanks.nil
  | cons item items =>
    obtain ⟨hitem, hitems⟩ := List.forall_mem_cons.1 h
    rw [Json.writeList, List.map_cons, List.map_cons, Json.writeEntries_cons]
    exact .list Blanks.nil hitem (writtenItems_compact hitems depth)

/-- The line of a field: its name, the sign of equality, and the value as the writer of JSON gives
it. -/
def fieldLine (s : Settings) (field : Field) : List Char :=
  field.name.toList ++ ' ' :: '=' :: ' ' :: Json.writeField .compact s field

/-- The name of a field needs no quotes. -/
theorem bare_name (field : Field) : Bare field.name.toList := by
  cases field <;> exact .of_all (by decide) (by decide)

/-- The line of a field assigns its value. -/
theorem writtenLine_field {s : Settings} (h : Writable s) (field : Field) :
    WrittenLine (.member field.name.toList (s.value field)) (fieldLine s field) := by
  have hb : Blanks [' '] := by simp [Blanks]
  have hv : WrittenValue (s.value field) (Json.writeField .compact s field) := by
    cases field with
    | protocols => exact writtenValue_compact h.protocols 1
    | addresses => exact writtenValue_compact h.addresses 1
    | id => exact .text h.id
    | secret => exact .text h.secret
  have hline := WrittenLine.member Blanks.nil (bare_name field) hb hb hv Blanks.nil
  simpa [fieldLine] using hline

end BrokerAgent.Toml
