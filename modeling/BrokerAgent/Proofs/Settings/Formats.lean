import BrokerAgent.Proofs.Json.RoundTrip
import BrokerAgent.Proofs.Toml.Loading

/-!
# The two file formats agree

Some fields of a record, in any order and among members that are not known, say the same in a plain
TOML document and in a JSON object. The two readers have nothing in common but what the members
mean (`gather`), so it is enough that the members give the chosen fields and nothing else
(`gather_given`).
-/

namespace BrokerAgent

/-- A field is found by its name only. -/
theorem Field.eq_of_ofName? {key : String} {field : Field} (h : Field.ofName? key = some field) :
    key = field.name := by
  have := List.find?_some h
  exact (of_decide_eq_true this).symm

namespace Settings

open Json

/-- Some fields of a record, and nothing in the others. -/
def only (s : Settings) (fields : List Field) : Settings where
  protocols := if .protocols ∈ fields then s.protocols else []
  addresses := if .addresses ∈ fields then s.addresses else []
  id := if .id ∈ fields then s.id else ""
  secret := if .secret ∈ fields then s.secret else ""

/-- A field of a record as a member. -/
def member (s : Settings) (field : Field) : List Char × Json.Value :=
  (field.name.toList, s.value field)

/-- Members that give some fields of a record, in any order. All others have unknown keys, and no
key comes twice. -/
structure GivenBy (s : Settings) (fields : List Field) (ms : List (List Char × Json.Value)) :
    Prop where
  complete : ∀ field ∈ fields, s.member field ∈ ms
  sound : ∀ m ∈ ms, (∃ field ∈ fields, m = s.member field) ∨
    Field.ofName? (String.ofList m.1) = none
  distinct : (ms.map (·.1)).Nodup

/-! ## What the members give -/

/-- The fields that are among the keys of members. -/
def keyed (ms : List (List Char × Json.Value)) : List Field :=
  ms.filterMap fun m => Field.ofName? (String.ofList m.1)

theorem name_of_ofName? {key : List Char} {field : Field}
    (h : Field.ofName? (String.ofList key) = some field) : key = field.name.toList := by
  rw [← Field.eq_of_ofName? h, String.toList_ofList]

/-- The fields of some members are those that their keys name. -/
theorem mem_keyed {field : Field} {ms : List (List Char × Json.Value)} :
    field ∈ keyed ms ↔ ∃ m ∈ ms, Field.ofName? (String.ofList m.1) = some field :=
  List.mem_filterMap

/-- Different keys are the names of different fields. -/
theorem nodup_keyed {ms : List (List Char × Json.Value)} (hd : (ms.map (·.1)).Nodup) :
    (keyed ms).Nodup := by
  refine List.pairwise_filterMap.2 ((List.pairwise_map.1 hd).imp ?_)
  rintro m m' hne field hfield _ hfield' rfl
  exact hne ((name_of_ofName? hfield).trans (name_of_ofName? hfield').symm)

/-- Unknown members change nothing. -/
theorem foldlM_keyed {s : Settings} {ms : List (List Char × Json.Value)}
    (hvalues : ∀ m ∈ ms, ∀ field, Field.ofName? (String.ofList m.1) = some field →
      m = s.member field) (g : Gathered) :
    ms.foldlM Gathered.take g = ((keyed ms).map s.member).foldlM Gathered.take g := by
  induction ms generalizing g with
  | nil => rfl
  | cons m ms ih =>
    have hlater := ih fun m hm => hvalues m (List.mem_cons_of_mem _ hm)
    cases hfield : Field.ofName? (String.ofList m.1) with
    | none =>
      have htake : g.take m = .ok g := by
        rw [Gathered.take, hfield]
      have hkeyed : keyed (m :: ms) = keyed ms := List.filterMap_cons_none hfield
      rw [List.foldlM_cons, htake, hkeyed]
      exact hlater g
    | some field =>
      have hkeyed : keyed (m :: ms) = field :: keyed ms := List.filterMap_cons_some hfield
      rw [hkeyed, List.map_cons, ← hvalues m List.mem_cons_self field hfield, List.foldlM_cons,
        List.foldlM_cons]
      exact congrArg _ (funext hlater)

/-- Copying fields one after the other copies just those. -/
theorem foldl_copyField (s : Settings) (fields : List Field) (record : Settings) :
    fields.foldl (fun record field => copyField s field record) record =
      { protocols := if .protocols ∈ fields then s.protocols else record.protocols
        addresses := if .addresses ∈ fields then s.addresses else record.addresses
        id := if .id ∈ fields then s.id else record.id
        secret := if .secret ∈ fields then s.secret else record.secret } := by
  induction fields generalizing record with
  | nil => rfl
  | cons field fields ih =>
    rw [List.foldl_cons, ih]
    cases field <;> simp [copyField]

/-- What is kept of a record depends on which fields are meant. -/
theorem only_congr {s : Settings} {a b : List Field} (h : ∀ field, field ∈ a ↔ field ∈ b) :
    s.only a = s.only b := by
  simp only [only, h]

/-- Members that give some fields of a record are gathered to these fields. -/
theorem gather_given {s : Settings} {fields : List Field} {ms : List (List Char × Json.Value)}
    (h : GivenBy s fields ms) : gather ms = .ok (s.only fields) := by
  have hvalues : ∀ m ∈ ms, ∀ field, Field.ofName? (String.ofList m.1) = some field →
      field ∈ fields ∧ m = s.member field := by
    intro m hm field hfield
    rcases h.sound m hm with ⟨chosen, hchosen, rfl⟩ | hunknown
    · rw [member, String.ofList_toList, Field.ofName?_name] at hfield
      obtain rfl := Option.some.inj hfield
      exact ⟨hchosen, rfl⟩
    · rw [hunknown] at hfield
      cases hfield
  have hfields : ∀ field, field ∈ keyed ms ↔ field ∈ fields := by
    intro field
    rw [mem_keyed]
    constructor
    · rintro ⟨m, hm, hfield⟩
      exact (hvalues m hm field hfield).1
    · intro hfield
      exact ⟨_, h.complete field hfield, by rw [member, String.ofList_toList, Field.ofName?_name]⟩
  have hfold := foldlM_values s (keyed ms) {} (nodup_keyed h.distinct) fun _ _ => List.not_mem_nil
  have hmap : (keyed ms).map s.member =
      (keyed ms).map fun field => (field.name.toList, s.value field) := rfl
  rw [gather, foldlM_keyed fun m hm field hfield => (hvalues m hm field hfield).2, hmap, hfold,
    foldl_copyField, ← only_congr hfields]
  rfl

/-! ## Loading -/

/-- What is written to a file that is not taken for JSON is read as TOML. -/
theorem load_toml_text {files : Files} {path : String} {text : List Char}
    (hpath : Path.isJson path.toList = false) (hfile : files path = .ok (Utf8.encode text)) :
    load files path = (ofToml text).mapError .toml := by
  simp only [load, hfile, ofBytes, Utf8.decode?_encode, hpath, if_false, Bool.false_eq_true]

/-- Some fields of a record load as the record with just these fields, from a file with a plain TOML
document that gives them and from a file with a JSON object that gives them. In either they may come
in any order and among other members, and the blank lines, the comments and the blanks between the
tokens do not matter. -/
theorem formats_agree (s : Settings) (fields : List Field) (lines : List Toml.Line)
    (ms : List (List Char × Json.Value)) (toml json : List Char) (files : Files)
    (tomlPath jsonPath : String) (hlines : Toml.WrittenLines lines toml)
    (hgiven : GivenBy s fields (Toml.members lines)) (hobject : Document (.object ms) json)
    (hms : GivenBy s fields ms) (htomlPath : Path.isJson tomlPath.toList = false)
    (htoml : files tomlPath = .ok (Utf8.encode toml))
    (hjsonPath : Path.isJson jsonPath.toList = true)
    (hjson : files jsonPath = .ok (Utf8.encode json)) :
    loadIfNamed files (some tomlPath) = .ok (s.only fields) ∧
      loadIfNamed files (some jsonPath) = .ok (s.only fields) := by
  constructor
  · have hread := Toml.ofToml_lines hlines hgiven.distinct (gather_given hgiven)
    have hload := load_toml_text htomlPath htoml
    rw [hread] at hload
    exact hload
  · have hload := load_members hjsonPath hjson hobject
    rw [gather_given hms] at hload
    exact hload

/-- A record with an empty text and with texts that need escapes. -/
def mixed : Settings where
  protocols := ["tcp", ""]
  addresses := ["broker:1"]
  secret := "\"\\\x01\u00e9"

/-- Three of its fields, not in the order of the record. -/
def mixedFields : List Field := [.secret, .id, .protocols]

/-- Lines that give them, with a comment, a blank line and an unknown key in between. -/
def mixedLines : List Toml.Line :=
  [.comment, .member "secret".toList (mixed.value .secret), .blank,
    .member "x-1".toList (.text "id".toList), .member "id".toList (mixed.value .id),
    .member "protocols".toList (mixed.value .protocols)]

/-- The lines as a document, of which the last one lacks its end. -/
def mixedToml : List Char :=
  ("# id = 1\nsecret = \"\\\"\\\\\\u0001\u00e9\"\n \r\nx-1 = \"id\"\nid = \"\"\n" ++
    "protocols = [\"tcp\",\"\"]").toList

/-- The fields as an object, in the order of the record. -/
def mixedJson : List Char :=
  writeEntries .pretty 0 '\x7b' '\x7d'
    ([Field.protocols, .id, .secret].map fun field =>
      (writeText field.name.toList ++ ':' :: [' ']) ++ writeField .pretty mixed field)

theorem writtenLines_mixedToml : Toml.WrittenLines mixedLines mixedToml := by
  have hwritable : Toml.Writable mixed := ⟨by decide, by decide, by decide, by decide⟩
  have hline := Toml.writtenLine_field hwritable
  have hend : ['\n'] ∈ Toml.lineEnds := by decide
  have hb : Toml.Blanks [' '] := by simp [Toml.Blanks]
  have hunknown : Toml.WrittenLine (.member "x-1".toList (.text "id".toList)) _ :=
    .member Toml.Blanks.nil (.of_all (by decide) (by decide)) hb hb (.text (by decide))
      Toml.Blanks.nil
  have hcomment : Toml.WrittenLine .comment _ :=
    .comment (b := []) (t := " id = 1".toList) Toml.Blanks.nil (.of_all (by decide))
  have h := Toml.WrittenLines.cons hcomment hend (.cons (hline .secret) hend
    (.cons (.blank hb) (by decide : ['\r', '\n'] ∈ Toml.lineEnds)
    (.cons hunknown hend (.cons (hline .id) hend (.last (hline .protocols))))))
  have htext : mixedToml = [] ++ '#' :: " id = 1".toList ++ ['\n'] ++
      (Toml.fieldLine mixed .secret ++ ['\n'] ++ ([' '] ++ ['\r', '\n'] ++
      ([] ++ "x-1".toList ++ [' '] ++ '=' :: [' '] ++ writeText "id".toList ++ [] ++ ['\n'] ++
      (Toml.fieldLine mixed .id ++ ['\n'] ++ Toml.fieldLine mixed .protocols)))) := by
    decide +kernel
  rw [htext]
  exact h

theorem givenBy_mixedLines : GivenBy mixed mixedFields (Toml.members mixedLines) where
  complete := by simp [mixedFields, mixedLines, Toml.members, member, Field.name]
  sound := by
    have hunknown : Field.ofName? "x-1" = none := by decide
    simp [mixedFields, mixedLines, Toml.members, member, Field.name, hunknown]
  distinct := by decide

theorem givenBy_mixedJson :
    GivenBy mixed mixedFields ([Field.protocols, .id, .secret].map mixed.member) where
  complete := by simp [mixedFields]
  sound := by simp [mixedFields]
  distinct := by decide

theorem document_mixedJson :
    Document (.object ([Field.protocols, .id, .secret].map mixed.member)) mixedJson := by
  have hobject : Written (.value (.object ([Field.protocols, .id, .secret].map mixed.member)))
      mixedJson :=
    written_object Layout.pretty_sound
      (fun field : Field => writtenKey_name Layout.pretty_sound field.name.toList)
      (written_field Layout.pretty_sound mixed) [Field.protocols, .id, .secret]
  have h := Document.mk Blank.nil hobject Blank.nil
  rwa [List.nil_append, List.append_nil] at h

/-- Three fields between a comment, a blank line and an unknown key, as TOML and as JSON. The field
that neither file gives is empty. -/
theorem formats_agree_mixed :
    let files : Files := fun path =>
      .ok (Utf8.encode (if path = "agent.json" then mixedJson else mixedToml))
    loadIfNamed files (some "agent.toml") = .ok { mixed with addresses := [] } ∧
      loadIfNamed files (some "agent.json") = .ok { mixed with addresses := [] } := by
  intro files
  have honly : mixed.only mixedFields = { mixed with addresses := [] } := by decide
  rw [← honly]
  exact formats_agree mixed mixedFields mixedLines _ mixedToml mixedJson files "agent.toml"
    "agent.json" writtenLines_mixedToml givenBy_mixedLines document_mixedJson givenBy_mixedJson
    (by decide) rfl (by decide) rfl

end Settings
end BrokerAgent
