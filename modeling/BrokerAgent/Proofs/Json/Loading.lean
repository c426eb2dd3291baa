import BrokerAgent.Proofs.Json.Magnitudes
import BrokerAgent.Proofs.Json.Members
import BrokerAgent.Proofs.Json.Writing
import BrokerAgent.Proofs.Text.Utf8
import BrokerAgent.Settings.Load

/-!
# Files with one object in them

A file that is taken for JSON and holds one object loads as the fold over the members of the object
says, for every value, every spelling and every blank between the tokens. The fold is refused for
what a member is, never for how it is written; the one exception is a number that stands in the
wrong place and is too large to be named in the message.
-/

namespace BrokerAgent.Json

/-! ## What a fold can be refused for -/

/-- A number that is read for certain: below `10 ^ 307`, and with a fraction of fewer than some two
thousand million digits. -/
def NumberText.Moderate (n : NumberText) : Prop :=
  n.Below 307 ∧ (n.fraction.getD []).length + 307 ≤ twoTo 31

/-- The number that a value is, if it is one. -/
def Value.ownNumber : Value → List NumberText
  | number n => [n]
  | _ => []

/-- The numbers that are looked at when a value is read into a field: the value itself, or the
items of a list. -/
def Value.numbers : Value → List NumberText
  | list items => items.flatMap ownNumber
  | v => v.ownNumber

/-- A cause that lies in what a text says: a repeated field, a value of the wrong shape, or one of
the given numbers, which is then no moderate one. -/
def Foreseen (numbers : List NumberText) (cause : Cause) : Prop :=
  cause.category = .dataFault ∨ cause = .numberTooLarge ∧ ∃ n ∈ numbers, ¬ n.Moderate

/-- A cause that some numbers explain is explained by more of them. -/
theorem Foreseen.mono {a b : List NumberText} {cause : Cause} (h : Foreseen a cause)
    (hab : a ⊆ b) : Foreseen b cause := by
  rcases h with h | ⟨h, n, hn, hm⟩
  · exact .inl h
  · exact .inr ⟨h, n, hab hn, hm⟩

/-- A number is refused for nothing but its size. -/
theorem heldAs_eq_error {negative : Bool} {x? : Option Binary64} {cause : Cause}
    (h : heldAs negative x? = .error cause) : cause = .numberTooLarge := by
  cases x? with
  | none => exact (Except.error.inj h).symm
  | some x => cases h

/-- A number that is refused is not of moderate size. -/
theorem number_eq_error {n : NumberText} {cause : Cause} (h : n.number = .error cause) :
    cause = .numberTooLarge ∧ ¬ n.Moderate := by
  refine ⟨?_, ?_⟩
  · unfold NumberText.number at h
    split at h
    · split at h
      · cases h
      · split at h
        · exact heldAs_eq_error h
        · cases h
    · exact heldAs_eq_error h
  · rintro ⟨hbelow, hfraction⟩
    obtain ⟨number, hn⟩ := NumberText.number_of_below hbelow hfraction
    rw [h] at hn
    cases hn

/-- A number in the wrong place is refused for its shape, or for its size if it has no value. -/
theorem refusal_number (wanted : Shape.Wanted) (n : NumberText) :
    (Value.number n).refusal wanted =
      match n.number with
      | .ok number => .wrongShape number.found wanted
      | .error cause => cause := by
  unfold Value.refusal Value.found
  cases hn : n.number <;> simp [hn, Except.map]

/-- A value of the wrong shape is refused for its shape or for the size of its number. -/
theorem refusal_foreseen (wanted : Shape.Wanted) (v : Value) :
    Foreseen v.ownNumber (v.refusal wanted) := by
  cases v with
  | number n =>
    rw [refusal_number]
    cases hn : n.number with
    | ok number => exact .inl rfl
    | error cause =>
      obtain ⟨rfl, hm⟩ := number_eq_error hn
      exact .inr ⟨rfl, n, List.mem_cons_self, hm⟩
  | _ => exact .inl rfl

/-- A value that is read as a text fails for reasons that the value itself gives. -/
theorem asText_foreseen {v : Value} {cause : Cause} (h : v.asText = .error cause) :
    Foreseen v.ownNumber cause := by
  cases v with
  | text characters => cases h
  | _ => exact Except.error.inj h ▸ refusal_foreseen .text _

/-- The first item that is refused decides for a list. -/
theorem mapM_eq_error {items : List Value} {cause : Cause}
    (h : items.mapM Value.asText = .error cause) : ∃ v ∈ items, v.asText = .error cause := by
  induction items with
  | nil => cases h
  | cons v items ih =>
    rw [mapM_asText_cons] at h
    cases hv : v.asText with
    | error refused =>
      rw [hv] at h
      exact ⟨v, List.mem_cons_self, by rw [hv, Except.error.inj h]⟩
    | ok text =>
      rw [hv] at h
      cases hitems : items.mapM Value.asText with
      | error refused =>
        rw [hitems] at h
        obtain ⟨w, hw, ht⟩ := ih (by rw [hitems]; exact h)
        exact ⟨w, List.mem_cons_of_mem v hw, ht⟩
      | ok texts =>
        rw [hitems] at h
        cases h

/-- A value that is read as a list of texts fails for reasons among its numbers. -/
theorem asTexts_foreseen {v : Value} {cause : Cause} (h : v.asTexts = .error cause) :
    Foreseen v.numbers cause := by
  cases v with
  | list items =>
    obtain ⟨item, hitem, ht⟩ := mapM_eq_error h
    exact (asText_foreseen ht).mono fun n hn => List.mem_flatMap.2 ⟨item, hitem, hn⟩
  | _ => exact Except.error.inj h ▸ refusal_foreseen .sequence _

/-- The number that a value is stands among those written in it. -/
theorem ownNumber_subset (v : Value) : v.ownNumber ⊆ v.numbers := by
  cases v with
  | list items => exact List.nil_subset _
  | _ => exact List.Subset.refl _

/-- A field is refused for reasons that its value gives. -/
theorem assign_foreseen {v : Value} {field : Field} {record : Settings} {cause : Cause}
    (h : v.assign field record = .error cause) : Foreseen v.numbers cause := by
  cases field with
  | protocols | addresses => exact asTexts_foreseen (map_eq_error.1 h)
  | id | secret => exact (asText_foreseen (map_eq_error.1 h)).mono (ownNumber_subset v)

/-- A member is refused for reasons that its value gives. -/
theorem take_foreseen {g : Gathered} {m : List Char × Value} {cause : Cause}
    (h : g.take m = .error cause) : Foreseen m.2.numbers cause := by
  unfold Gathered.take at h
  split at h
  · cases h
  · split at h
    · exact .inl (Except.error.inj h ▸ rfl)
    · exact assign_foreseen (map_eq_error.1 h)

/-- The member that ends the fold has the numbers that matter. -/
theorem foldlM_foreseen {members : List (List Char × Value)} {g : Gathered} {cause : Cause}
    (h : members.foldlM Gathered.take g = .error cause) :
    Foreseen (members.flatMap fun m => m.2.numbers) cause := by
  induction members generalizing g with
  | nil => cases h
  | cons m members ih =>
    rw [List.foldlM_cons] at h
    rw [List.flatMap_cons]
    -- the fold ends with this member or with one of the later ones
    cases ht : g.take m with
    | ok g' =>
      rw [ht] at h
      exact (ih h).mono (List.subset_append_right _ _)
    | error refused =>
      rw [ht] at h
      have hm := take_foreseen (ht.trans h)
      exact hm.mono (List.subset_append_left _ _)

/-- Members are refused for reasons that their values give. -/
theorem gather_foreseen {members : List (List Char × Value)} {cause : Cause}
    (h : gather members = .error cause) :
    Foreseen (members.flatMap fun m => m.2.numbers) cause :=
  foldlM_foreseen (map_eq_error.1 h)

end BrokerAgent.Json

namespace BrokerAgent.Settings

open Json

/-! ## Loading -/

/-- What is written to a file that is taken for JSON is what its record is read from. -/
theorem load_text {files : Files} {path : String} {text : List Char}
    (hpath : Path.isJson path.toList = true) (hfile : files path = .ok (Utf8.encode text)) :
    load files path = (ofJson text).mapError .json := by
  simp only [load, hfile, ofBytes, Utf8.decode?_encode, hpath, if_true]

/-- A file whose text gives a record is loaded as that record. -/
theorem load_of_settings_ok {files : Files} {path : String} {text : List Char} {record : Settings}
    (hpath : Path.isJson path.toList = true) (hfile : files path = .ok (Utf8.encode text))
    (h : settings text = .ok record) : load files path = .ok record := by
  rw [load_text hpath hfile, ofJson, h]
  rfl

/-- A fault of a text is reported with its line and column. -/
theorem load_of_settings_error {files : Files} {path : String} {text : List Char} {fault : Fault}
    (hpath : Path.isJson path.toList = true) (hfile : files path = .ok (Utf8.encode text))
    (h : settings text = .error fault) : load files path = .error (.json (fault.report text)) := by
  rw [load_text hpath hfile, ofJson, h]
  rfl

/-- A file with one object in it loads as the fold over the members. -/
theorem load_members {files : Files} {path : String} {text : List Char}
    {members : List (List Char × Value)} (hpath : Path.isJson path.toList = true)
    (hfile : files path = .ok (Utf8.encode text)) (htext : Document (.object members) text) :
    match gather members with
    | .ok record => load files path = .ok record
    | .error cause => ∃ place, load files path = .error (.json ⟨cause, place⟩) := by
  have hread := settings_document htext
  cases hg : gather members with
  | ok record =>
    rw [hg] at hread
    exact load_of_settings_ok hpath hfile hread
  | error cause =>
    rw [hg] at hread
    obtain ⟨mark, hr⟩ := hread
    exact ⟨_, load_of_settings_error hpath hfile hr⟩

/-- A file that is taken for JSON and holds one object gives the record of the fold over its
members, or the report of the first member that is refused. The report is about the content of the
file, unless a number of at least `10 ^ 307` stands where another shape is wanted. -/
theorem load_object (files : Files) (path : String) (text : List Char)
    (members : List (List Char × Value)) (hpath : Path.isJson path.toList = true)
    (hfile : files path = .ok (Utf8.encode text)) (htext : Document (.object members) text) :
    (∀ record, gather members = .ok record → load files path = .ok record) ∧
      ∀ cause, gather members = .error cause →
        (∃ place, load files path = .error (.json ⟨cause, place⟩)) ∧
          (cause.category = .dataFault ∨ cause = .numberTooLarge ∧
            ∃ m ∈ members, ∃ n ∈ m.2.numbers, ¬ n.Moderate) := by
  have hload := load_members hpath hfile htext
  constructor
  · intro record hg
    rw [hg] at hload
    exact hload
  · intro cause hg
    rw [hg] at hload
    refine ⟨hload, ?_⟩
    rcases gather_foreseen hg with hdata | ⟨hlarge, n, hn, hm⟩
    · exact .inl hdata
    · obtain ⟨m, hmem, hnm⟩ := List.mem_flatMap.1 hn
      exact .inr ⟨hlarge, m, hmem, n, hnm, hm⟩

/-- An unknown key with a known one inside its value, and a known key that is spelled by number. -/
def nestedMembers : List (List Char × Value) :=
  [(['x'], .list [.object [(['i', 'd'], .null)]]), (['i', 'd'], .text ['a'])]

/-- The nested members in a text with blanks. -/
def nestedText : List Char :=
  "\x7b\"x\": [\x7b\"id\":null\x7d],\n\"\\u0069d\":\"a\"\x7d".toList

theorem document_nestedText : Document (.object nestedMembers) nestedText := by
  have hx : WrittenKey ['x'] ('"' :: ['x'] ++ '"' :: [] ++ ':' :: [' ']) :=
    .mk (spells_escaped ['x']) Blank.nil (by simp [Blank])
  have hinner : WrittenKey ['i', 'd'] ('"' :: ['i', 'd'] ++ '"' :: [] ++ ':' :: []) :=
    .mk (spells_escaped ['i', 'd']) Blank.nil Blank.nil
  have hid : WrittenKey ['i', 'd']
      ('"' :: ('\\' :: 'u' :: ['0', '0', '6', '9'] ++ ['d']) ++ '"' :: [] ++ ':' :: []) :=
    .mk (.cons (.unit ⟨by decide, by decide⟩) (spells_escaped ['d'])) Blank.nil Blank.nil
  have hobject := Written.object Blank.nil hinner .null (.noMembers Blank.nil)
  have hlist := Written.list Blank.nil hobject (.noItems Blank.nil)
  have hline : Blank ['\n'] := by simp [Blank]
  have hlast := Written.members Blank.nil hline hid (.text (spells_escaped ['a']))
    (.noMembers Blank.nil)
  exact Document.mk Blank.nil (.object Blank.nil hx hlist hlast) Blank.nil

/-- The known key inside the unknown value is passed over, the one behind it is taken. -/
theorem load_nestedText :
    load (fun _ => .ok (Utf8.encode nestedText)) "agent.json" = .ok { id := "a" } :=
  (load_object _ _ nestedText nestedMembers (by decide) rfl document_nestedText).1 _ rfl

/-- The largest number of the format. -/
def largestNumber : Nat := (2 ^ 53 - 1) * 2 ^ 971

/-- A number just below the largest one. Its first digits are rounded up. -/
def edgeNumber : NumberText where
  negative := false
  whole := ['1']
  fraction := some "7976931348623157081".toList
  exponent := some
    { mark := 'e', sign := [], digits := ['3', '0', '8'], mark_eq := .inl rfl, sign_eq := .inl rfl,
      digits_ok := .of_all (by decide) (by decide) }
  whole_ok := .of_all (by decide) (by decide)
  whole_zero := by decide
  fraction_ok := by
    rintro digits hd
    obtain rfl := Option.some.inj hd
    exact .of_all (by decide) (by decide)

/-- The number where a text is wanted. -/
def edgeText : List Char := "\x7b\"id\":1.7976931348623157081e308\x7d".toList

theorem document_edgeText : Document (.object [(['i', 'd'], .number edgeNumber)]) edgeText := by
  have hid : WrittenKey ['i', 'd'] ('"' :: ['i', 'd'] ++ '"' :: [] ++ ':' :: []) :=
    .mk (spells_escaped ['i', 'd']) Blank.nil Blank.nil
  exact Document.mk Blank.nil
    (.object Blank.nil hid (.number edgeNumber) (.noMembers Blank.nil)) Blank.nil

/-- The border of what is read lies below the largest number of the format: a number that the format
could hold is refused as too large, and not for its shape. -/
theorem load_edgeText :
    Document (.object [(['i', 'd'], .number edgeNumber)]) edgeText ∧
      edgeNumber.ratio.1 ≤ largestNumber * edgeNumber.ratio.2 ∧
      (∃ place, load (fun _ => .ok (Utf8.encode edgeText)) "agent.json" =
        .error (.json ⟨.numberTooLarge, place⟩)) ∧
      Cause.numberTooLarge.category ≠ .dataFault := by
  have hnumber : edgeNumber.number = .error .numberTooLarge := by
    -- the digits are rounded up to 17976931348623157248 before they are multiplied
    have hmagnitude : edgeNumber.magnitude? = none := by decide +kernel
    rw [NumberText.number, if_neg (by decide), hmagnitude]
    rfl
  have hassign : (Value.number edgeNumber).assign .id {} = .error .numberTooLarge := by
    have htext : (Value.number edgeNumber).asText =
        .error ((Value.number edgeNumber).refusal .text) := rfl
    rw [Value.assign, htext, refusal_number, hnumber]
    rfl
  have hgather : gather [(['i', 'd'], .number edgeNumber)] = .error .numberTooLarge := by
    have htake : Gathered.take {} (['i', 'd'], .number edgeNumber) =
        ((Value.number edgeNumber).assign .id {}).map fun record => ⟨[.id], record⟩ := rfl
    rw [gather, List.foldlM_cons, htake, hassign]
    rfl
  refine ⟨document_edgeText, by decide +kernel, ?_, by decide⟩
  have hpath : Path.isJson "agent.json".toList = true := by decide
  have hload := @load_members (fun _ => .ok (Utf8.encode edgeText)) "agent.json" _ _ hpath rfl
    document_edgeText
  rw [hgather] at hload
  exact hload

end BrokerAgent.Settings
