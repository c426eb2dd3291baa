import BrokerAgent.Proofs.Settings.Formats

/-!
# Records given as lists

A JSON list gives the fields of a record in their order, and may end early. What it means is a fold
over its items (`place`), in which an item that no field is left for is refused; the reader does one
step of it for each item (`readPositions_written`). The fold takes a list exactly if it is the
beginning of the values of a record that is empty behind it (`place_eq_ok_iff`), so no item is
passed over and none is taken for another field. The main result is `list_form_agrees`.
-/

namespace BrokerAgent

namespace Json

/-! ## The meaning of a list -/

/-- The record that items give, each to the next of the fields. -/
def place : List Field → Settings → List Value → Except Cause Settings
  | _, record, [] => .ok record
  | [], _, _ :: _ => .error .trailingCharacters
  | field :: fields, record, v :: vs => v.assign field record >>= fun next => place fields next vs

/-! ## Reading item by item -/

/-- The bracket of a list is found behind blanks. -/
theorem readClosing_closing {b : List Char} (hb : Blank b) (s : List Char) :
    readClosing (b ++ ']' :: s) = .ok s := by
  rw [readClosing, skipSpace_blank_cons hb (by decide)]
  rfl

/-- Nothing but the bracket may follow the last field. -/
theorem readClosing_comma {b₁ b₂ : List Char} (h₁ : Blank b₁) (h₂ : Blank b₂) {c : Char}
    (hc : Opening c) (s : List Char) :
    readClosing (b₁ ++ ',' :: (b₂ ++ c :: s)) = faultAt .trailingCharacters (c :: s) := by
  rw [readClosing, skipSpace_blank_cons h₁ (by decide)]
  simp only [skipSpace_blank_cons h₂ hc.1, if_neg hc.2]
  rfl

/-- At the bracket the record is what has been placed. -/
theorem readPositions_closing (fields : List Field) (record : Settings) (first : Bool)
    {b : List Char} (hb : Blank b) (s : List Char) :
    readPositions fields record first (b ++ ']' :: s) = .ok (record, s) := by
  cases fields with
  | nil =>
    rw [readPositions, readClosing_closing hb]
    rfl
  | cons field fields => rw [readPositions, nextItem_closing first hb]

/-- Reading one item is one step of the fold. -/
theorem readPositions_item {first : Bool} {s t b rest : List Char} {v : Value} {vs : List Value}
    {field : Field} {fields : List Field} {record : Settings}
    (hnext : nextItem first b = .ok (.entry (s ++ t))) (hv : Written (.value v) s)
    (ht : Delimited t)
    (hrest : ∀ next, (readPositions fields next false t).ComesTo (place fields next vs) rest) :
    (readPositions (field :: fields) record first b).ComesTo
      (place (field :: fields) record (v :: vs)) rest := by
  have hread := readField_written hv Blank.nil ht field record
  rw [List.nil_append] at hread
  rw [readPositions, hnext, place]
  dsimp only
  cases hassign : v.assign field record with
  | error cause =>
    rw [hassign] at hread
    obtain ⟨mark, hr⟩ := hread
    rw [hr]
    exact ⟨mark, rfl⟩
  | ok next =>
    rw [hassign] at hread
    have hr : readField field record (s ++ t) = .ok (next, t) := hread
    rw [hr]
    exact hrest next

/-- The elements of a list are placed one after the other. -/
theorem readPositions_written {vs : List Value} {t : List Char} (h : Written (.items vs) t)
    (rest : List Char) (fields : List Field) (record : Settings) :
    (readPositions fields record false (t ++ rest)).ComesTo (place fields record vs) rest := by
  induction vs generalizing t fields record with
  | nil =>
    cases h with
    | noItems hb =>
      rw [List.append_assoc]
      have hclosing := readPositions_closing fields record false hb rest
      rw [place]
      exact hclosing
  | cons v vs ih =>
    cases h with
    | @items b₁ b₂ s t _ _ h₁ h₂ hv hvs =>
      obtain ⟨c, tail, hc, hopen⟩ := hv.head
      simp only [List.cons_append, List.append_assoc]
      cases fields with
      -- one item more than there are fields, whatever it is
      | nil =>
        rw [hc, readPositions, List.cons_append, readClosing_comma h₁ h₂ hopen]
        exact ⟨_, rfl⟩
      | cons field fields =>
        have hnext : nextItem false (b₁ ++ ',' :: (b₂ ++ (s ++ (t ++ rest)))) =
            .ok (.entry (s ++ (t ++ rest))) := by
          rw [hc]
          exact nextItem_comma h₁ h₂ hopen _
        exact readPositions_item hnext hv (hvs.delimited_items rest) (ih hvs fields)

/-- A list is read as the fold over its items says. -/
theorem readSettings_list {vs : List Value} {s : List Char} (h : Written (.value (.list vs)) s)
    {b : List Char} (hb : Blank b) (rest : List Char) :
    (readSettings (b ++ (s ++ rest))).ComesTo (place Field.all {} vs) rest := by
  cases h with
  | @emptyList gap hgap =>
    simp only [List.cons_append, List.append_assoc]
    rw [readSettings, skipSpace_blank_cons hb (by decide)]
    exact readPositions_closing Field.all {} true hgap rest
  | @list gap s t v vs hgap hv hvs =>
    obtain ⟨c, tail, hc, hopen⟩ := hv.head
    have hnext : nextItem true (gap ++ (s ++ (t ++ rest))) = .ok (.entry (s ++ (t ++ rest))) := by
      rw [hc]
      exact nextItem_first hgap hopen _
    simp only [List.cons_append, List.append_assoc]
    rw [readSettings, skipSpace_blank_cons hb (by decide)]
    exact readPositions_item hnext hv (hvs.delimited_items rest)
      (readPositions_written hvs rest [.addresses, .id, .secret])

/-! ## What the fold takes -/

/-- The values read as a text are the texts. -/
theorem asText_eq_ok_iff {v : Value} {text : String} :
    v.asText = .ok text ↔ v = .text text.toList := by
  constructor
  · intro h
    cases v with
    | text characters =>
      rw [← Except.ok.inj h, String.toList_ofList]
    | _ => cases h
  · rintro rfl
    exact asText_text text

/-- The values read as texts are the texts in their order. -/
theorem mapM_asText_eq_ok_iff {vs : List Value} {texts : List String} :
    vs.mapM Value.asText = .ok texts ↔ vs = texts.map fun text => .text text.toList := by
  constructor
  · intro h
    induction vs generalizing texts with
    | nil =>
      obtain rfl : [] = texts := Except.ok.inj h
      rfl
    | cons v vs ih =>
      rw [mapM_asText_cons, bind_eq_ok] at h
      obtain ⟨text, hv, h⟩ := h
      obtain ⟨later, hvs, rfl⟩ := map_eq_ok.1 h
      rw [asText_eq_ok_iff.1 hv, ih hvs, List.map_cons]
  · rintro rfl
    exact mapM_asText_texts texts

/-- The values read as a list of texts are the lists of texts. -/
theorem asTexts_eq_ok_iff {v : Value} {texts : List String} :
    v.asTexts = .ok texts ↔ v = .list (texts.map fun text => .text text.toList) := by
  constructor
  · intro h
    cases v with
    | list items => rw [mapM_asText_eq_ok_iff.1 h]
    | _ => cases h
  · rintro rfl
    exact asTexts_texts texts

/-- A value is taken for a field if it is the value of that field, and then it changes no other. -/
theorem assign_eq_ok_iff {v : Value} {field : Field} {base record : Settings} :
    v.assign field base = .ok record ↔
      v = record.value field ∧ record = copyField record field base := by
  cases field with
  | protocols | addresses =>
    rw [Value.assign, map_eq_ok]
    constructor
    · rintro ⟨texts, hv, rfl⟩
      exact ⟨asTexts_eq_ok_iff.1 hv, rfl⟩
    · rintro ⟨hv, hrecord⟩
      exact ⟨_, asTexts_eq_ok_iff.2 hv, hrecord.symm⟩
  | id | secret =>
    rw [Value.assign, map_eq_ok]
    constructor
    · rintro ⟨text, hv, rfl⟩
      exact ⟨asText_eq_ok_iff.1 hv, rfl⟩
    · rintro ⟨hv, hrecord⟩
      exact ⟨_, asText_eq_ok_iff.2 hv, hrecord.symm⟩

/-- A field that is copied has the value that it had. -/
theorem value_copyField_self (s : Settings) (field : Field) (base : Settings) :
    (copyField s field base).value field = s.value field := by
  cases field <;> rfl

theorem value_copyField_of_ne {s base : Settings} {field other : Field} (h : other ≠ field) :
    (copyField s field base).value other = base.value other := by
  cases field <;> cases other <;> first | rfl | exact absurd rfl h

theorem value_foldl_copyField {s base : Settings} {fields : List Field} {field : Field}
    (h : field ∉ fields) :
    (fields.foldl (fun record f => copyField s f record) base).value field = base.value field := by
  induction fields generalizing base with
  | nil => rfl
  | cons f fields ih =>
    rw [List.foldl_cons, ih fun hmem => h (List.mem_cons_of_mem _ hmem)]
    exact value_copyField_of_ne fun he => h (he ▸ List.mem_cons_self)

theorem copyField_congr {s s' : Settings} {field : Field} (h : s.value field = s'.value field)
    (base : Settings) : copyField s field base = copyField s' field base := by
  have hs := (assign_value s field base).symm
  rw [h, assign_value] at hs
  exact Except.ok.inj hs

/-- The fold takes the values of as many fields of a record as there are items, and leaves the
other fields as they were. -/
theorem place_eq_ok_iff {fields : List Field} (hd : fields.Nodup) {base record : Settings}
    {vs : List Value} :
    place fields base vs = .ok record ↔
      vs.length ≤ fields.length ∧ vs = (fields.take vs.length).map record.value ∧
        record = (fields.take vs.length).foldl (fun r field => copyField record field r) base := by
  induction vs generalizing fields base with
  | nil =>
    have hplace : place fields base [] = .ok base := by cases fields <;> rfl
    rw [hplace]
    simp [eq_comm]
  | cons v vs ih =>
    cases fields with
    | nil => simp [place]
    | cons field fields =>
      obtain ⟨hfield, hd⟩ := List.nodup_cons.1 hd
      have hfield : field ∉ fields.take vs.length := fun hmem => hfield (List.mem_of_mem_take hmem)
      simp only [place, bind_eq_ok, assign_eq_ok_iff, List.length_cons, List.take_succ_cons,
        List.map_cons, List.foldl_cons, Nat.add_le_add_iff_right, List.cons.injEq]
      constructor
      · rintro ⟨next, ⟨hv, hnext⟩, hplace⟩
        obtain ⟨hlength, hvs, hrecord⟩ := (ih hd).1 hplace
        -- the later items do not touch the field that the first one gave
        have hvalue : next.value field = record.value field := by
          rw [hrecord, value_foldl_copyField hfield]
        rw [copyField_congr hvalue] at hnext
        rw [hnext] at hrecord
        exact ⟨hlength, ⟨hv.trans hvalue, hvs⟩, hrecord⟩
      · rintro ⟨hlength, ⟨hv, hvs⟩, hrecord⟩
        have hvalue := value_copyField_self record field base
        exact ⟨copyField record field base, ⟨hv.trans hvalue.symm, (copyField_congr hvalue base).symm⟩,
          (ih hd).2 ⟨hlength, hvs, hrecord⟩⟩

end Json

namespace Settings

open Json

/-! ## Loading -/

/-- A file with one list in it loads as the fold over the items. -/
theorem load_list {files : Files} {path : String} {text : List Char} {vs : List Json.Value}
    (hpath : Path.isJson path.toList = true) (hfile : files path = .ok (Utf8.encode text))
    (htext : Document (.list vs) text) :
    match place Field.all {} vs with
    | .ok record => load files path = .ok record
    | .error cause => ∃ place, load files path = .error (.json ⟨cause, place⟩) := by
  obtain @⟨b₁, s, b₂, h₁, hs, h₂⟩ := htext
  rw [List.append_assoc] at hfile
  have hread := readSettings_list hs h₁ b₂
  cases hp : place Field.all {} vs with
  | ok record =>
    rw [hp] at hread
    exact load_of_settings_ok hpath hfile (settings_of_ok hread h₂)
  | error cause =>
    rw [hp] at hread
    obtain ⟨mark, hr⟩ := hread
    exact ⟨_, load_of_settings_error hpath hfile (settings_of_error hr)⟩

/-- The fold over all fields, from nothing on, takes the first values of a record that is empty
behind them. -/
theorem place_all_eq_ok_iff {vs : List Json.Value} {record : Settings} :
    place Field.all {} vs = .ok record ↔
      vs.length ≤ 4 ∧ vs = (Field.all.take vs.length).map record.value ∧
        record = record.only (Field.all.take vs.length) := by
  rw [place_eq_ok_iff (by decide), foldl_copyField]
  exact Iff.rfl

/-- A list gives a record exactly if its items are the first values of that record, and the fields
that they do not reach are empty. -/
theorem load_list_eq_ok_iff {files : Files} {path : String} {text : List Char}
    {vs : List Json.Value} (hpath : Path.isJson path.toList = true)
    (hfile : files path = .ok (Utf8.encode text)) (htext : Document (.list vs) text)
    {record : Settings} :
    load files path = .ok record ↔
      vs.length ≤ 4 ∧ vs = (Field.all.take vs.length).map record.value ∧
        record = record.only (Field.all.take vs.length) := by
  have hload := load_list hpath hfile htext
  rw [← place_all_eq_ok_iff]
  cases hp : place Field.all {} vs with
  | ok placed =>
    rw [hp] at hload
    rw [hload, Except.ok.injEq, Except.ok.injEq]
  | error cause =>
    rw [hp] at hload
    obtain ⟨place, h⟩ := hload
    simp [h]

/-- A list that gives no record is refused with a report. -/
theorem load_list_refused {files : Files} {path : String} {text : List Char}
    {vs : List Json.Value} (hpath : Path.isJson path.toList = true)
    (hfile : files path = .ok (Utf8.encode text)) (htext : Document (.list vs) text)
    (h : ∀ record, load files path ≠ .ok record) :
    ∃ report, load files path = .error (.json report) := by
  have hload := load_list hpath hfile htext
  cases hp : place Field.all {} vs with
  | ok placed =>
    rw [hp] at hload
    exact absurd hload (h placed)
  | error cause =>
    rw [hp] at hload
    obtain ⟨place, h⟩ := hload
    exact ⟨⟨cause, place⟩, h⟩

/-- Members in any order give each field its value. -/
theorem givenBy_of_perm {s : Settings} {fields : List Field} {ms : List (List Char × Json.Value)}
    (hd : fields.Nodup) (h : ms.Perm (fields.map s.member)) : GivenBy s fields ms where
  complete := fun field hfield => h.mem_iff.2 (List.mem_map.2 ⟨field, hfield, rfl⟩)
  sound := by
    intro m hm
    obtain ⟨field, hfield, rfl⟩ := List.mem_map.1 (h.mem_iff.1 hm)
    exact .inl ⟨field, hfield, rfl⟩
  distinct := by
    rw [(h.map _).nodup_iff, List.map_map]
    -- different fields have different names
    refine List.pairwise_map.2 (hd.imp fun {a b} hne hname => hne ?_)
    have ha := Field.ofName?_name a
    rw [String.toList_inj.1 hname, Field.ofName?_name] at ha
    exact (Option.some.inj ha).symm

/-- A field that is kept has its value. -/
theorem value_only {s : Settings} {fields : List Field} {field : Field} (h : field ∈ fields) :
    (s.only fields).value field = s.value field := by
  cases field <;> simp only [only, value, if_pos h]

theorem only_only (s : Settings) (fields : List Field) :
    (s.only fields).only fields = s.only fields := by
  simp only [only, Settings.mk.injEq]
  refine ⟨?_, ?_, ?_, ?_⟩ <;> split <;> rfl

/-- A value of the shape that a field has. -/
def Suits (field : Field) (v : Json.Value) : Prop :=
  match field with
  | .protocols | .addresses => ∃ texts : List (List Char), v = .list (texts.map .text)
  | .id | .secret => ∃ text, v = .text text

/-- The value of a field has the shape that the field asks for. -/
theorem suits_value (s : Settings) (field : Field) : Suits field (s.value field) := by
  cases field with
  | protocols => exact ⟨s.protocols.map String.toList, by rw [value, List.map_map]; rfl⟩
  | addresses => exact ⟨s.addresses.map String.toList, by rw [value, List.map_map]; rfl⟩
  | id => exact ⟨s.id.toList, rfl⟩
  | secret => exact ⟨s.secret.toList, rfl⟩

/-- The first fields of a record, written as a list or as an object with just these members, load as
the record with nothing in the others. No item of a list is passed over or taken for another field:
a list that loads consists of the first values of what it gives, one that goes on behind the last
field is refused, and so is one with an item that does not have the shape of its field. -/
theorem list_form_agrees (files : Files) (path : String) (text : List Char)
    (vs : List Json.Value) (hpath : Path.isJson path.toList = true)
    (hfile : files path = .ok (Utf8.encode text)) (htext : Document (.list vs) text) :
    (∀ (s : Settings) (k : Nat) (objectPath : String) (objectText : List Char)
      (ms : List (List Char × Json.Value)),
      k ≤ 4 → vs = (Field.all.take k).map s.value → Path.isJson objectPath.toList = true →
        files objectPath = .ok (Utf8.encode objectText) →
        ms.Perm ((Field.all.take k).map s.member) → Document (.object ms) objectText →
          load files path = .ok (s.only (Field.all.take k)) ∧
            load files objectPath = .ok (s.only (Field.all.take k))) ∧
    (∀ record, load files path = .ok record ↔
      vs.length ≤ 4 ∧ vs = (Field.all.take vs.length).map record.value ∧
        record = record.only (Field.all.take vs.length)) ∧
    (4 < vs.length → ∃ report, load files path = .error (.json report)) ∧
    ∀ (i : Nat) (v : Json.Value) (field : Field), vs[i]? = some v → Field.all[i]? = some field →
      ¬ Suits field v → ∃ report, load files path = .error (.json report) := by
  have hiff := fun record => @load_list_eq_ok_iff files path text vs hpath hfile htext record
  refine ⟨?_, hiff, ?_, ?_⟩
  · intro s k objectPath objectText ms hk hvs hobjectPath hobjectFile hperm hobject
    have hlength : vs.length = k := by
      rw [hvs, List.length_map, List.length_take]
      exact Nat.min_eq_left hk
    constructor
    · rw [hiff, hlength]
      refine ⟨hk, ?_, ?_⟩
      · rw [hvs]
        exact List.map_congr_left fun field hfield => (value_only hfield).symm
      · exact (only_only s _).symm
    · have hd : (Field.all.take k).Nodup := (by decide : Field.all.Nodup).sublist (List.take_sublist k _)
      have hload := load_members hobjectPath hobjectFile hobject
      rw [gather_given (givenBy_of_perm hd hperm)] at hload
      exact hload
  · intro hlong
    refine load_list_refused hpath hfile htext fun record hload => ?_
    have hshort := ((hiff record).1 hload).1
    omega
  · intro i v field hv hfield hsuits
    refine load_list_refused hpath hfile htext fun record hload => ?_
    obtain ⟨-, hvs, -⟩ := (hiff record).1 hload
    have hi : i < vs.length := (List.getElem?_eq_some_iff.1 hv).1
    rw [hvs, List.getElem?_map, List.getElem?_take_of_lt hi, hfield] at hv
    obtain rfl := Option.some.inj hv
    exact hsuits (suits_value record field)

/-- A record of which two fields are given. -/
def udpOnly : Settings where
  protocols := ["udp"]

/-- Its two fields as a list with blanks. -/
def spacedList : List Char := " [ [\"udp\"]\n,\t[ ] ]\n".toList

/-- The same fields as an object, in another order. -/
def spacedObject : List Char := "\x7b\"addresses\":[ ],\"protocols\": [\"udp\"]\x7d".toList

/-- A list with one item more than there are fields. -/
def longList : List Char := "[[ ],[ ],\"\",\"\",null]".toList

theorem document_spacedList :
    Document (.list ((Field.all.take 2).map udpOnly.value)) spacedList := by
  have hspace : Blank [' '] := by simp [Blank]
  have hprotocols := Written.list Blank.nil (.text (spells_escaped "udp".toList))
    (.noItems Blank.nil)
  exact Document.mk hspace
    (.list hspace hprotocols
      (.items (by simp [Blank] : Blank ['\n']) (by simp [Blank] : Blank ['\t']) (.emptyList hspace)
        (.noItems hspace)))
    (by simp [Blank] : Blank ['\n'])

theorem document_spacedObject :
    Document (.object ([Field.addresses, .protocols].map udpOnly.member)) spacedObject := by
  have hspace : Blank [' '] := by simp [Blank]
  have hprotocols := Written.list Blank.nil (.text (spells_escaped "udp".toList))
    (.noItems Blank.nil)
  exact Document.mk Blank.nil
    (.object Blank.nil (.mk (spells_escaped "addresses".toList) Blank.nil Blank.nil)
      (.emptyList hspace)
      (.members Blank.nil Blank.nil (.mk (spells_escaped "protocols".toList) Blank.nil hspace)
        hprotocols (.noMembers Blank.nil)))
    Blank.nil

theorem document_longList :
    Document (.list [.list [], .list [], .text [], .text [], .null]) longList := by
  have hspace : Blank [' '] := by simp [Blank]
  have hempty : Written (.value (.text [])) _ := .text .nil
  exact Document.mk Blank.nil
    (.list Blank.nil (.emptyList hspace) (.items Blank.nil Blank.nil (.emptyList hspace)
      (.items Blank.nil Blank.nil hempty (.items Blank.nil Blank.nil hempty
        (.items Blank.nil Blank.nil .null (.noItems Blank.nil))))))
    Blank.nil

/-- Two fields in both forms, and a list that goes on behind the last field. -/
theorem list_form_agrees_spaced :
    let files : Files := fun path => .ok (Utf8.encode
      (if path = "list.json" then spacedList
        else if path = "object.json" then spacedObject else longList))
    load files "list.json" = .ok udpOnly ∧ load files "object.json" = .ok udpOnly ∧
      ∃ report, load files "long.json" = .error (.json report) := by
  intro files
  have hspaced := list_form_agrees files "list.json" spacedList _ (by decide) rfl
    document_spacedList
  have hlong := list_form_agrees files "long.json" longList _ (by decide) rfl document_longList
  have honly : udpOnly.only (Field.all.take 2) = udpOnly := by decide
  obtain ⟨hlist, hobject⟩ := hspaced.1 udpOnly 2 "object.json" spacedObject _ (by decide) rfl
    (by decide) rfl (.swap _ _ _) document_spacedObject
  rw [honly] at hlist hobject
  exact ⟨hlist, hobject, hlong.2.2.1 (by decide)⟩

end Settings
end BrokerAgent
