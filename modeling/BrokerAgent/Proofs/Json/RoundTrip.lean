import BrokerAgent.Program
import BrokerAgent.Proofs.Json.Loading
import BrokerAgent.Proofs.Json.Writing

/-!
# Written records load back

A record that is written as JSON and stored in a file that is taken for JSON loads as the same
record, whatever its texts hold and however many they are. The writer stays within the grammar
(`written_settings`) and the reader follows the fold over the members (`load_members`), so all that
is left is that the fold gives each field back (`gather_members`).
-/

namespace BrokerAgent

namespace Json

/-- Texts are read back from the values that stand for them. -/
theorem mapM_asText_texts (items : List String) :
    (items.map fun item => Value.text item.toList).mapM Value.asText = .ok items := by
  induction items with
  | nil => rfl
  | cons item items ih =>
    rw [List.map_cons, mapM_asText_cons, ih, Value.asText, String.ofList_toList]
    rfl

theorem asTexts_texts (items : List String) :
    (Value.list (items.map fun item => .text item.toList)).asTexts = .ok items :=
  mapM_asText_texts items

theorem asText_text (text : String) : (Value.text text.toList).asText = .ok text := by
  rw [Value.asText, String.ofList_toList]

/-- A record with one field copied from another. -/
def copyField (s : Settings) (field : Field) (record : Settings) : Settings :=
  match field with
  | .protocols => { record with protocols := s.protocols }
  | .addresses => { record with addresses := s.addresses }
  | .id => { record with id := s.id }
  | .secret => { record with secret := s.secret }

/-- The value of a field, given to another record, is copied there. -/
theorem assign_value (s : Settings) (field : Field) (record : Settings) :
    (s.value field).assign field record = .ok (copyField s field record) := by
  cases field with
  | protocols | addresses =>
    rw [Value.assign, Settings.value, asTexts_texts]
    rfl
  | id | secret =>
    rw [Value.assign, Settings.value, asText_text]
    rfl

/-- A field that comes first is copied. -/
theorem take_value {g : Gathered} {field : Field} (h : field ∉ g.seen) (s : Settings) :
    g.take (field.name.toList, s.value field) =
      .ok ⟨field :: g.seen, copyField s field g.record⟩ := by
  rw [Gathered.take, String.ofList_toList, Field.ofName?_name]
  dsimp only
  rw [if_neg h, assign_value]
  rfl

/-- Fields that are all different are copied one after the other. -/
theorem foldlM_values (s : Settings) (fields : List Field) (g : Gathered) (hd : fields.Nodup)
    (hg : ∀ field ∈ fields, field ∉ g.seen) :
    (fields.map fun field => (field.name.toList, s.value field)).foldlM Gathered.take g =
      .ok ⟨fields.reverse ++ g.seen,
        fields.foldl (fun record field => copyField s field record) g.record⟩ := by
  induction fields generalizing g with
  | nil => rfl
  | cons field fields ih =>
    obtain ⟨hfield, hd⟩ := List.nodup_cons.1 hd
    have hnext : ∀ f ∈ fields, f ∉ field :: g.seen := by
      intro f hf hmem
      rcases List.mem_cons.1 hmem with rfl | hmem
      · exact hfield hf
      · exact hg f (List.mem_cons_of_mem _ hf) hmem
    rw [List.map_cons, List.foldlM_cons, take_value (hg field List.mem_cons_self)]
    rw [List.reverse_cons, List.append_assoc]
    exact ih ⟨field :: g.seen, copyField s field g.record⟩ hd hnext

/-- The members of a record give the record. -/
theorem gather_members (s : Settings) : gather s.members = .ok s := by
  rw [gather, Settings.members, foldlM_values s Field.all {} (by decide) (by decide)]
  rfl

/-- The record of a written record is that record, whatever blanks follow it. -/
theorem ofJson_writeSettings {layout : Layout} (hl : layout.Sound) (s : Settings) {b : List Char}
    (hb : Blank b) : Settings.ofJson (writeSettings layout s ++ b) = .ok s := by
  have hread := settings_document (Document.mk Blank.nil (written_settings hl s) hb)
  rw [gather_members] at hread
  have hr : settings (writeSettings layout s ++ b) = .ok s := hread
  rw [Settings.ofJson, hr]
  rfl

end Json

namespace Settings

open Json

/-- The text of a record in either layout loads as the record, whatever blanks follow it. -/
theorem load_toJson {files : Files} {path : String} {layout : Layout} (hl : layout.Sound)
    {s : Settings} {b : List Char} (hb : Blank b) (hpath : Path.isJson path.toList = true)
    (hfile : files path = .ok (Utf8.encode ((s.toJson layout).toList ++ b))) :
    load files path = .ok s := by
  rw [load_text hpath hfile, toJson, String.toList_ofList, ofJson_writeSettings hl s hb]
  rfl

/-- Two records with the same text are the same. -/
theorem toJson_injective {layout : Layout} (hl : layout.Sound) {a b : Settings}
    (h : a.toJson layout = b.toJson layout) : a = b := by
  have htext : writeSettings layout a = writeSettings layout b := String.ofList_injective h
  have ha := ofJson_writeSettings hl a Blank.nil
  have hb := ofJson_writeSettings hl b Blank.nil
  rw [htext, hb] at ha
  exact (Except.ok.inj ha).symm

/-- Files that hold the texts of records, one record for each path. -/
def holding (records : String → Settings) : Files := fun path =>
  .ok (Utf8.encode ((records path).toJson .compact).toList)

/-- A file that holds a record is loaded as that record. -/
theorem load_holding (records : String → Settings) {path : String}
    (hpath : Path.isJson path.toList = true) :
    load (holding records) path = .ok (records path) := by
  apply load_toJson Layout.compact_sound Blank.nil hpath
  rw [holding, List.append_nil]

/-- The two layouts that records are written in. -/
def layouts : List Layout := [.compact, .pretty]

/-- Both layouts put nothing but blanks between the parts. -/
theorem sound_of_mem_layouts {layout : Layout} (h : layout ∈ layouts) : layout.Sound := by
  rcases List.mem_cons.1 h with rfl | h
  · exact Layout.compact_sound
  · obtain rfl := List.mem_singleton.1 h
    exact Layout.pretty_sound

/-- A record comes back from its text in either layout, and the masked copy from what a run prints
in the end. Both hold for every record, with whatever characters in its texts, and for every file
that is taken for JSON. So no two records have the same text. -/
theorem load_written :
    (∀ (layout : Layout) (files : Files) (path : String) (s : Settings), layout ∈ layouts →
      Path.isJson path.toList = true → files path = .ok (Utf8.encode (s.toJson layout).toList) →
        loadIfNamed files (some path) = .ok s) ∧
    (∀ (files : Files) (path : String) (o : Options) (s : Settings), o.print = true →
      Path.isJson path.toList = true →
      files path = .ok (Utf8.encode (Program.printed o s).toList) →
        loadIfNamed files (some path) = .ok s.masked) ∧
    ∀ (layout : Layout) (a b : Settings), layout ∈ layouts →
      a.toJson layout = b.toJson layout → a = b := by
  refine ⟨?_, ?_, ?_⟩
  · intro layout files path s hl hpath hfile
    rw [← List.append_nil (s.toJson layout).toList] at hfile
    exact load_toJson (sound_of_mem_layouts hl) Blank.nil hpath hfile
  · intro files path o s hprint hpath hfile
    -- the printed text ends its last line
    have hb : Blank ['\n'] := by simp [Blank]
    rw [Program.printed, if_pos hprint, String.toList_append] at hfile
    exact load_toJson Layout.pretty_sound hb hpath hfile
  · intro layout a b hl h
    exact toJson_injective (sound_of_mem_layouts hl) h

/-- A record with quotes, controls, characters of every length and an empty text. -/
def awkward : Settings where
  protocols := ["tcp", ""]
  id := "\"\\\x01\n\x7f\u2028\u00e9😀"
  secret := "/"

/-- Quotes, controls and characters of every length come back. -/
theorem load_written_awkward :
    loadIfNamed (fun _ => .ok (Utf8.encode (awkward.toJson .compact).toList))
        (some "agent.JSON") = .ok awkward ∧
      loadIfNamed (fun _ => .ok (Utf8.encode (Program.printed { print := true } awkward).toList))
        (some "run/agent.json/") = .ok awkward.masked ∧
      awkward.toJson .pretty ≠ awkward.masked.toJson .pretty := by
  have hne : awkward ≠ awkward.masked := by decide
  refine ⟨?_, ?_, fun h => hne ?_⟩
  · exact load_written.1 .compact _ _ _ List.mem_cons_self (by decide) rfl
  · exact load_written.2.1 _ _ { print := true } _ rfl (by decide) rfl
  · exact load_written.2.2 .pretty _ _ (List.mem_cons_of_mem _ List.mem_cons_self) h

end Settings
end BrokerAgent
