import BrokerAgent.Proofs.Except
import BrokerAgent.Proofs.Json.Shapes

/-!
# Members are taken one after the other

What an object means for the record is a fold over its members in their order (`gather`): an
unknown key changes nothing, a known one gives its field, and the first member that is refused
decides. The reader does one step of that fold for each member (`readMembers_member`), so a whole
object is read as the fold says (`readMembers_written`), and so is a text that holds one
(`settings_document`).
-/

namespace BrokerAgent.Json

/-! ## The meaning of members -/

/-- A record with the value of one field. -/
def Value.assign (field : Field) (record : Settings) (v : Value) : Except Cause Settings :=
  match field with
  | .protocols => v.asTexts.map fun items => { record with protocols := items }
  | .addresses => v.asTexts.map fun items => { record with addresses := items }
  | .id => v.asText.map fun text => { record with id := text }
  | .secret => v.asText.map fun text => { record with secret := text }

/-- What has been gathered: the fields that were given, and the record they make. -/
structure Gathered where
  seen : List Field := []
  record : Settings := {}

/-- Takes one more member. -/
def Gathered.take (g : Gathered) (member : List Char × Value) : Except Cause Gathered :=
  match Field.ofName? (String.ofList member.1) with
  | none => .ok g
  | some field =>
    if field ∈ g.seen then .error (.repeatedField field)
    else (member.2.assign field g.record).map fun record => ⟨field :: g.seen, record⟩

/-- The record that members give, in their order. -/
def gather (members : List (List Char × Value)) : Except Cause Settings :=
  (members.foldlM Gathered.take {}).map Gathered.record

/-- What it takes to take a member of a known field. -/
theorem take_eq_ok {g g' : Gathered} {key : List Char} {v : Value} {field : Field}
    (hfield : Field.ofName? (String.ofList key) = some field) (h : g.take (key, v) = .ok g') :
    field ∉ g.seen ∧ v.assign field g.record = .ok g'.record ∧ g'.seen = field :: g.seen := by
  unfold Gathered.take at h
  simp only [hfield] at h
  split at h
  · cases h
  · obtain ⟨record, hassign, rfl⟩ := map_eq_ok.1 h
    exact ⟨‹_›, hassign, rfl⟩

theorem foldlM_take_cons {g g' : Gathered} {m : List Char × Value}
    {ms : List (List Char × Value)} (h : (m :: ms).foldlM Gathered.take g = .ok g') :
    ∃ next, g.take m = .ok next ∧ ms.foldlM Gathered.take next = .ok g' := by
  rw [List.foldlM_cons] at h
  exact bind_eq_ok.1 h

/-- The record of some members is gathered from nothing. -/
theorem foldlM_of_gather {ms : List (List Char × Value)} {record : Settings}
    (h : gather ms = .ok record) :
    ∃ g, ms.foldlM Gathered.take {} = .ok g ∧ g.record = record :=
  map_eq_ok.1 h

/-! ## One member -/

/-- The value of a field is read as `Value.assign` says. -/
theorem readField_written {v : Value} {s : List Char} (h : Written (.value v) s)
    {b rest : List Char} (hb : Blank b) (hrest : Delimited rest) (field : Field) (record : Settings) :
    (readField field record (b ++ (s ++ rest))).ComesTo (v.assign field record) rest := by
  cases field with
  | protocols => exact (readStrings_written h hb hrest).mapValue _
  | addresses => exact (readStrings_written h hb hrest).mapValue _
  | id => exact (readString_written h hb hrest).mapValue _
  | secret => exact (readString_written h hb hrest).mapValue _

/-- Blanks before a colon say nothing. -/
theorem readColon_blank {b : List Char} (hb : Blank b) (s : List Char) :
    readColon (b ++ ':' :: s) = .ok s := by
  rw [readColon, skipSpace_blank_cons hb (by decide)]
  rfl

/-- The first member follows blanks. -/
theorem nextMember_first {b : List Char} (hb : Blank b) (s : List Char) :
    nextMember true (b ++ '"' :: s) = .ok (.entry s) := by
  rw [nextMember, skipSpace_blank_cons hb (by decide)]
  rfl

/-- Any later member follows a comma among blanks. -/
theorem nextMember_comma {b₁ b₂ : List Char} (h₁ : Blank b₁) (h₂ : Blank b₂) (s : List Char) :
    nextMember false (b₁ ++ ',' :: (b₂ ++ '"' :: s)) = .ok (.entry s) := by
  rw [nextMember, skipSpace_blank_cons h₁ (by decide)]
  simp only [skipSpace_blank_cons h₂ (by decide : isSpace '"' = false)]
  rfl

/-- A brace ends the members. -/
theorem nextMember_closing (first : Bool) {b : List Char} (hb : Blank b) (s : List Char) :
    nextMember first (b ++ '\x7d' :: s) = .ok (.closed s) := by
  rw [nextMember, skipSpace_blank_cons hb (by decide)]
  rfl

/-- What is read for a member, once its key is known. -/
theorem readMembers_entry {seen : List Field} {record : Settings} {first : Bool}
    {s rest key after value : List Char} (hs : nextMember first s = .ok (.entry rest))
    (hkey : readText rest = .ok (key, after)) (hcolon : readColon after = .ok value) :
    readMembers seen record first s =
      match Field.ofName? (String.ofList key) with
      | none =>
        match skipFrom .value [] value with
        | .error fault => .error fault
        | .ok rest => readMembers seen record false rest
      | some field =>
        if field ∈ seen then faultHere (.repeatedField field) (pastRepeated after)
        else
          match readField field record value with
          | .error fault => .error fault
          | .ok (record, rest) => readMembers (field :: seen) record false rest := by
  rw [readMembers]
  split
  · simp_all
  · simp_all
  · rename_i heq
    obtain rfl : rest = _ := by simpa [hs] using heq
    split
    · simp_all
    · rename_i heq
      obtain ⟨rfl, rfl⟩ : key = _ ∧ after = _ := by simpa [hkey] using heq
      cases hname : Field.ofName? (String.ofList key) with
      | none =>
        dsimp only
        split
        · simp_all
        · rename_i heq
          obtain rfl := Except.ok.inj (hcolon.symm.trans heq)
          split <;> rename_i heq <;> rw [heq]
      | some field =>
        dsimp only
        split
        · rfl
        · split
          · simp_all
          · rename_i heq
            obtain rfl := Except.ok.inj (hcolon.symm.trans heq)
            split <;> rename_i heq <;> rw [heq]

/-- Reading one member is one step of the fold: it goes on with what has been gathered, or ends with
the cause for which the member is refused. -/
theorem readMembers_member {first : Bool} {s key spelling b₁ b₂ written rest : List Char}
    {v : Value} (g : Gathered) (hspell : Spells key spelling) (h₁ : Blank b₁) (h₂ : Blank b₂)
    (hv : Written (.value v) written) (hrest : Delimited rest)
    (hnext : nextMember first s =
      .ok (.entry (spelling ++ '"' :: (b₁ ++ ':' :: (b₂ ++ (written ++ rest)))))) :
    match g.take (key, v) with
    | .ok g' => readMembers g.seen g.record first s = readMembers g'.seen g'.record false rest
    | .error cause => ∃ mark, readMembers g.seen g.record first s = .error ⟨cause, mark⟩ := by
  have hkey := readText_spelled hspell (b₁ ++ ':' :: (b₂ ++ (written ++ rest)))
  have hcolon := readColon_blank h₁ (b₂ ++ (written ++ rest))
  rw [readMembers_entry hnext hkey hcolon, Gathered.take]
  cases Field.ofName? (String.ofList key) with
  -- an unknown key: its value is passed over, and both loops stop at the same place
  | none =>
    dsimp only
    rw [skipFrom_written hv h₂ hrest]
  | some field =>
    dsimp only
    by_cases hseen : field ∈ g.seen
    -- a repeated key is refused before its value is looked at
    · rw [if_pos hseen, if_pos hseen]
      exact ⟨_, rfl⟩
    · rw [if_neg hseen, if_neg hseen]
      have hread := readField_written hv h₂ hrest field g.record
      cases hassign : v.assign field g.record with
      | ok record =>
        rw [hassign] at hread
        have hr : readField field g.record (b₂ ++ (written ++ rest)) = .ok (record, rest) := hread
        rw [hr]
        rfl
      | error cause =>
        rw [hassign] at hread
        obtain ⟨mark, hr⟩ := hread
        rw [hr]
        exact ⟨mark, rfl⟩

/-! ## All members -/

/-- The fold after one more step, as an outcome of a reading. -/
theorem comesTo_step {reading : Reading Settings} (next : Gathered → Reading Settings)
    {g : Gathered} {m : List Char × Value} {ms : List (List Char × Value)} {rest : List Char}
    (hstep : match g.take m with
      | .ok g' => reading = next g'
      | .error cause => ∃ mark, reading = .error ⟨cause, mark⟩)
    (hnext : ∀ g', (next g').ComesTo ((ms.foldlM Gathered.take g').map Gathered.record) rest) :
    reading.ComesTo (((m :: ms).foldlM Gathered.take g).map Gathered.record) rest := by
  rw [List.foldlM_cons]
  cases htake : g.take m with
  | ok g' =>
    rw [htake] at hstep
    have hr : reading = next g' := hstep
    rw [hr]
    exact hnext g'
  | error cause =>
    rw [htake] at hstep
    exact hstep

/-- At the brace the record is what has been gathered. -/
theorem readMembers_closing (g : Gathered) (first : Bool) {b : List Char} (hb : Blank b)
    (s : List Char) : readMembers g.seen g.record first (b ++ '\x7d' :: s) = .ok (g.record, s) := by
  rw [readMembers]
  split <;> simp_all [nextMember_closing first hb s]

/-- The members that follow another one are read as the fold goes on from what has been
gathered. -/
theorem readMembers_written {ms : List (List Char × Value)} {t : List Char}
    (h : Written (.members ms) t) (rest : List Char) (g : Gathered) :
    (readMembers g.seen g.record false (t ++ rest)).ComesTo
      ((ms.foldlM Gathered.take g).map Gathered.record) rest := by
  -- on the members; what has been gathered changes with each of them
  induction ms generalizing t g with
  | nil =>
    cases h with
    | noMembers hb =>
      rw [List.append_assoc]
      exact readMembers_closing g false hb rest
  | cons m ms ih =>
    cases h with
    | @members b₁ b₂ k s t key v _ h₁ h₂ hk hv hms =>
      obtain @⟨spelling, b₃, b₄, hspell, h₃, h₄⟩ := hk
      have hstep := readMembers_member g hspell h₃ h₄ hv (hms.delimited_members rest)
        (nextMember_comma h₁ h₂ _)
      simp only [List.cons_append, List.append_assoc]
      exact comesTo_step (fun g' => readMembers g'.seen g'.record false (t ++ rest)) hstep
        (ih hms)

/-- An object is read as the fold over its members says. -/
theorem readSettings_written {ms : List (List Char × Value)} {s : List Char}
    (h : Written (.value (.object ms)) s) {b : List Char} (hb : Blank b) (rest : List Char) :
    (readSettings (b ++ (s ++ rest))).ComesTo (gather ms) rest := by
  cases h with
  | @emptyObject gap hgap =>
    simp only [List.cons_append, List.append_assoc]
    rw [readSettings, skipSpace_blank_cons hb (by decide)]
    exact readMembers_closing {} true hgap rest
  | @object gap k s t key v ms hgap hk hv hms =>
    obtain @⟨spelling, b₃, b₄, hspell, h₃, h₄⟩ := hk
    have hstep := readMembers_member {} hspell h₃ h₄ hv (hms.delimited_members rest)
      (nextMember_first hgap _)
    simp only [List.cons_append, List.append_assoc]
    rw [readSettings, skipSpace_blank_cons hb (by decide)]
    exact comesTo_step (fun g' => readMembers g'.seen g'.record false (t ++ rest)) hstep
      (readMembers_written hms rest)

/-! ## Whole texts -/

theorem settings_of_ok {s b : List Char} {record : Settings}
    (h : readSettings s = .ok (record, b)) (hb : Blank b) : settings s = .ok record := by
  -- nothing but blanks is left behind the value
  have hend : skipSpace b = [] := by
    rw [← List.append_nil b, skipSpace_append hb]
    rfl
  rw [settings, h]
  simp only [readEnd, hend]
  rfl

theorem settings_of_error {s : List Char} {fault : Fault} (h : readSettings s = .error fault) :
    settings s = .error fault := by
  rw [settings, h]

/-- A text with one object in it gives the record of the fold over its members, or is refused for
the cause that the fold ends with. -/
theorem settings_document {ms : List (List Char × Value)} {text : List Char}
    (h : Document (.object ms) text) :
    match gather ms with
    | .ok record => settings text = .ok record
    | .error cause => ∃ mark, settings text = .error ⟨cause, mark⟩ := by
  obtain @⟨b₁, s, b₂, h₁, hs, h₂⟩ := h
  have hread := readSettings_written hs h₁ b₂
  rw [List.append_assoc]
  cases hg : gather ms with
  | ok record =>
    rw [hg] at hread
    exact settings_of_ok hread h₂
  | error cause =>
    rw [hg] at hread
    obtain ⟨mark, hr⟩ := hread
    exact ⟨mark, settings_of_error hr⟩

end BrokerAgent.Json
