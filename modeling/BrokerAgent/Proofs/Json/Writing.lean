import BrokerAgent.Json.Writer
import BrokerAgent.Proofs.Json.Grammar
import BrokerAgent.Proofs.Text.Quoted

/-!
# What is written is JSON

The writer stays within the grammar: an escaped text spells the text it came from, entries between
brackets are a list or an object in every layout whose gaps are blanks, and a record is an object
with its fields as members (`written_settings`).
-/

namespace BrokerAgent

/-- The value of a field. -/
def Settings.value (s : Settings) : Field → Json.Value
  | .protocols => .list (s.protocols.map fun item => .text item.toList)
  | .addresses => .list (s.addresses.map fun item => .text item.toList)
  | .id => .text s.id.toList
  | .secret => .text s.secret.toList

/-- The fields of a record as the members of an object. -/
def Settings.members (s : Settings) : List (List Char × Json.Value) :=
  Field.all.map fun field => (field.name.toList, s.value field)

namespace Json

/-! ## Texts -/

theorem unitDigits_control : ∀ n < 32,
    ['0', '0', Nat.digitChar (n / 16), Nat.digitChar (n % 16)].map Char.toLower = unitDigits n := by
  decide

/-- Every character is written in one of the ways to spell it. -/
theorem spellsChar_escapeChar (c : Char) : SpellsChar c (escapeChar c) := by
  unfold escapeChar
  -- one case for each line of the definition: seven letters, the other controls, the rest
  split
  · rename_i h
    subst h
    exact .letter (l := '"') (by decide)
  split
  · rename_i h
    subst h
    exact .letter (l := '\\') (by decide)
  split
  · rename_i h
    subst h
    exact .letter (l := 'b') (by decide)
  split
  · rename_i h
    subst h
    exact .letter (l := 'f') (by decide)
  split
  · rename_i h
    subst h
    exact .letter (l := 'n') (by decide)
  split
  · rename_i h
    subst h
    exact .letter (l := 'r') (by decide)
  split
  · rename_i h
    subst h
    exact .letter (l := 't') (by decide)
  split
  · rename_i h
    -- the other controls are written by their numbers
    have hn : c.toNat < 32 := h
    exact .unit ⟨by omega, unitDigits_control c.toNat hn⟩
  · rename_i hquote hslash _ _ _ _ _ hlow
    exact .raw (Char.not_lt.1 hlow) hquote hslash

/-- What is written for a text spells it. -/
theorem spells_escaped (text : List Char) : Spells text (text.flatMap escapeChar) := by
  induction text with
  | nil => exact .nil
  | cons c text ih => exact .cons (spellsChar_escapeChar c) ih

/-- A text is written as a text. -/
theorem written_text (text : List Char) : Written (.value (.text text)) (writeText text) :=
  .text (spells_escaped text)

/-! ## Entries -/

/-- A layout that puts nothing but blanks between tokens. -/
structure Layout.Sound (layout : Layout) : Prop where
  gap : ∀ depth, Blank (layout.gap depth)
  afterColon : Blank layout.afterColon

/-- The compact layout puts nothing between the parts. -/
theorem Layout.compact_sound : Layout.compact.Sound where
  gap := fun _ c hc => by cases hc
  afterColon := fun c hc => by cases hc

/-- The other layout puts blanks between them. -/
theorem Layout.pretty_sound : Layout.pretty.Sound where
  gap := by
    intro depth c hc
    rcases List.mem_cons.1 hc with rfl | hc
    · exact .inr (.inr (.inl rfl))
    · exact .inl (List.eq_of_mem_replicate hc)
  afterColon := fun c hc => .inl (List.mem_singleton.1 hc)

/-- What follows the first entry, up to the closing bracket. -/
def moreEntries (layout : Layout) (depth : Nat) (closing : Char) (entries : List (List Char)) :
    List Char :=
  entries.flatMap (fun entry => ',' :: (layout.gap (depth + 1) ++ entry)) ++
    (layout.gap depth ++ [closing])

/-- The first entry follows the bracket, the others follow commas. -/
theorem writeEntries_cons (layout : Layout) (depth : Nat) (opening closing : Char)
    (entry : List Char) (entries : List (List Char)) :
    writeEntries layout depth opening closing (entry :: entries) =
      opening :: layout.gap (depth + 1) ++ entry ++ moreEntries layout depth closing entries := by
  dsimp only [writeEntries, moreEntries]
  rw [List.map_cons, Text.intercalate_cons, List.flatMap_map]
  simp only [List.cons_append, List.nil_append, List.append_assoc]

section Entries

variable {layout : Layout} {depth : Nat} {α : Type}

/-- The items behind the first are written as a list asks for. -/
theorem written_moreItems (hl : layout.Sound) {value : α → Value} {text : α → List Char}
    (h : ∀ a, Written (.value (value a)) (text a)) (l : List α) :
    Written (.items (l.map value)) (moreEntries layout depth ']' (l.map text)) := by
  induction l with
  | nil => exact .noItems (hl.gap depth)
  | cons a l ih =>
    -- the comma stands right behind the entry before it, the gap behind the comma
    have hitems := Written.items Blank.nil (hl.gap (depth + 1)) (h a) ih
    simpa [moreEntries] using hitems

/-- A list is written as its items are, one after the other. -/
theorem written_list (hl : layout.Sound) {value : α → Value} {text : α → List Char}
    (h : ∀ a, Written (.value (value a)) (text a)) (l : List α) :
    Written (.value (.list (l.map value))) (writeEntries layout depth '[' ']' (l.map text)) := by
  cases l with
  | nil => exact .emptyList Blank.nil
  | cons a l =>
    rw [List.map_cons, List.map_cons, writeEntries_cons]
    exact .list (hl.gap (depth + 1)) (h a) (written_moreItems hl h l)

theorem written_moreMembers (hl : layout.Sound) {name key text : α → List Char} {value : α → Value}
    (hk : ∀ a, WrittenKey (name a) (key a)) (hv : ∀ a, Written (.value (value a)) (text a))
    (l : List α) :
    Written (.members (l.map fun a => (name a, value a)))
      (moreEntries layout depth '\x7d' (l.map fun a => key a ++ text a)) := by
  induction l with
  | nil => exact .noMembers (hl.gap depth)
  | cons a l ih =>
    have hmembers := Written.members Blank.nil (hl.gap (depth + 1)) (hk a) (hv a) ih
    simpa [moreEntries] using hmembers

/-- An object is written as its members are, one after the other. -/
theorem written_object (hl : layout.Sound) {name key text : α → List Char} {value : α → Value}
    (hk : ∀ a, WrittenKey (name a) (key a)) (hv : ∀ a, Written (.value (value a)) (text a))
    (l : List α) :
    Written (.value (.object (l.map fun a => (name a, value a))))
      (writeEntries layout depth '\x7b' '\x7d' (l.map fun a => key a ++ text a)) := by
  cases l with
  | nil => exact .emptyObject Blank.nil
  | cons a l =>
    rw [List.map_cons, List.map_cons, writeEntries_cons, ← List.append_assoc]
    exact .object (hl.gap (depth + 1)) (hk a) (hv a) (written_moreMembers hl hk hv l)

end Entries

/-! ## Records -/

/-- A name and its colon are written as a key. -/
theorem writtenKey_name {layout : Layout} (hl : layout.Sound) (name : List Char) :
    WrittenKey name (writeText name ++ ':' :: layout.afterColon) :=
  .mk (spells_escaped name) Blank.nil hl.afterColon

/-- The characters of the value of a field, one level inside the record. -/
def writeField (layout : Layout) (s : Settings) : Field → List Char
  | .protocols => writeList layout 1 s.protocols
  | .addresses => writeList layout 1 s.addresses
  | .id => writeText s.id.toList
  | .secret => writeText s.secret.toList

theorem written_field {layout : Layout} (hl : layout.Sound) (s : Settings) (field : Field) :
    Written (.value (s.value field)) (writeField layout s field) := by
  have hlist : ∀ items : List String,
      Written (.value (.list (items.map fun item => .text item.toList)))
        (writeList layout 1 items) :=
    written_list hl fun item => written_text item.toList
  cases field with
  | protocols => exact hlist s.protocols
  | addresses => exact hlist s.addresses
  | id => exact written_text _
  | secret => exact written_text _

/-- A record is written as an object with its fields as members. -/
theorem written_settings {layout : Layout} (hl : layout.Sound) (s : Settings) :
    Written (.value (.object s.members)) (writeSettings layout s) :=
  written_object hl (fun field : Field => writtenKey_name hl field.name.toList) (written_field hl s)
    Field.all

end Json
end BrokerAgent
