import BrokerAgent.Json.Settings
import BrokerAgent.Proofs.Json.Values

/-!
# Values of a wanted shape are read as they are written

`Value.asText` and `Value.asTexts` say what a value is worth where a text or a list of texts is
wanted: what it holds, or the cause for which it is refused. The readers come to the same
(`readString_written`, `readStrings_written`) and stop behind the value when it is taken.
-/

namespace BrokerAgent.Json

namespace Value

/-- What a value is called in a message. A number has to be read for that. -/
def found : Value → Except Cause Shape.Found
  | null => .ok .null
  | boolean value => .ok (.boolean value)
  | number n => n.number.map Number.found
  | text characters => .ok (.text characters)
  | list _ => .ok .sequence
  | object _ => .ok .map

/-- Why a value is refused where another shape is wanted. -/
def refusal (wanted : Shape.Wanted) (v : Value) : Cause :=
  match v.found with
  | .ok found => .wrongShape found wanted
  | .error cause => cause

/-- The text that a value is. -/
def asText : Value → Except Cause String
  | text characters => .ok (String.ofList characters)
  | v => .error (v.refusal .text)

/-- The list of texts that a value is. The first item that is none decides. -/
def asTexts : Value → Except Cause (List String)
  | list items => items.mapM asText
  | v => .error (v.refusal .sequence)

end Value

/-! ## Outcomes of readings -/

/-- A reading that comes to a result comes to the changed result when its value is changed. -/
theorem Reading.ComesTo.mapValue {α β : Type} {reading : Reading α} {result : Except Cause α}
    {rest : List Char} (h : reading.ComesTo result rest) (f : α → β) :
    (reading.mapValue f).ComesTo (result.map f) rest := by
  cases result with
  | ok a =>
    have hr : reading = .ok (a, rest) := h
    rw [hr]
    rfl
  | error cause =>
    obtain ⟨mark, hr⟩ := h
    rw [hr]
    exact ⟨mark, rfl⟩

/-- Reading what comes to a value that is not wanted ends in the fault that says so. -/
theorem misplaced_of_comesTo {α β : Type} {reading : Except Fault (α × List Char)}
    {result : Except Cause α} {rest : List Char} (h : Reading.ComesTo reading result rest)
    (wanted : Shape.Wanted) (name : α → Shape.Found) :
    ∃ mark, (reading >>= fun (a, rest) => misplaced wanted (name a) rest) =
      (.error ⟨match result.map name with
        | .ok found => .wrongShape found wanted
        | .error cause => cause, mark⟩ : Except Fault β) := by
  cases result with
  | ok a =>
    have hr : reading = .ok (a, rest) := h
    rw [hr]
    exact ⟨_, rfl⟩
  | error cause =>
    obtain ⟨mark, hr⟩ := h
    rw [hr]
    exact ⟨mark, rfl⟩

/-! ## Refused values -/

/-- A value of any shape is refused with its own name. -/
theorem refuse_written {α : Type} {v : Value} {s : List Char} (h : Written (.value v) s)
    (wanted : Shape.Wanted) {rest : List Char} (hrest : Delimited rest) :
    ∃ c tail mark, s = c :: tail ∧
      refuse wanted c (tail ++ rest) = (.error ⟨v.refusal wanted, mark⟩ : Except Fault α) := by
  cases h with
  -- words and brackets are refused as soon as they are seen
  | null => exact ⟨_, _, _, rfl, rfl⟩
  | true => exact ⟨_, _, _, rfl, rfl⟩
  | false => exact ⟨_, _, _, rfl, rfl⟩
  -- numbers and texts are read first, since the message names them
  | number n =>
    have hread := readNumber_written n hrest
    obtain ⟨mark, hm⟩ := misplaced_of_comesTo (β := α) hread wanted Number.found
    rcases n.text_cases with ⟨hn, ht⟩ | ⟨hn, c, s, hc, hu, ht⟩
    · refine ⟨'-', _, mark, ht, ?_⟩
      rw [hn] at hm
      exact hm
    · have hne : ∀ d, d.isDigit = false → c ≠ d := fun d hd => ne_of_isDigit hc hd
      refine ⟨c, s, mark, ht, ?_⟩
      rw [hn, hu] at hm
      rw [refuse, if_neg (hne 'n' (by decide)), if_neg (hne 't' (by decide)),
        if_neg (hne 'f' (by decide)), if_neg (hne '-' (by decide)), if_pos hc]
      exact hm
  | @text t spelling ht =>
    have hread : Reading.ComesTo (readText (spelling ++ ['"'] ++ rest)) (.ok t) rest := by
      rw [List.append_assoc]
      exact readText_spelled ht rest
    obtain ⟨mark, hm⟩ := misplaced_of_comesTo (β := α) hread wanted Shape.Found.text
    exact ⟨'"', _, mark, rfl, hm⟩
  | emptyList => exact ⟨_, _, _, rfl, rfl⟩
  | list => exact ⟨_, _, _, rfl, rfl⟩
  | emptyObject => exact ⟨_, _, _, rfl, rfl⟩
  | object => exact ⟨_, _, _, rfl, rfl⟩

/-- A value is a text, or it is refused where one is wanted and does not begin like one. -/
theorem Written.text_or {v : Value} {s : List Char} (h : Written (.value v) s) :
    (∃ t spelling, v = .text t ∧ s = '"' :: spelling ++ ['"'] ∧ Spells t spelling) ∨
      v.asText = .error (v.refusal .text) ∧ ∃ c tail, s = c :: tail ∧ Opening c ∧ c ≠ '"' := by
  cases h with
  | text ht => exact .inl ⟨_, _, rfl, rfl, ht⟩
  | number n =>
    obtain ⟨c, tail, ht, hc⟩ := n.text_head
    exact .inr ⟨rfl, c, tail, ht, opening_of_numberHead hc, numberHead_ne hc (by decide)⟩
  | _ => exact .inr ⟨rfl, _, _, rfl, by decide, by decide⟩

/-- A value is a list, or it is refused where one is wanted and does not begin like one. -/
theorem Written.list_or {v : Value} {s : List Char} (h : Written (.value v) s) :
    (∃ items, v = .list items) ∨ v.asTexts = .error (v.refusal .sequence) ∧
      ∃ c tail, s = c :: tail ∧ Opening c ∧ c ≠ '[' := by
  cases h with
  | emptyList | list => exact .inl ⟨_, rfl⟩
  | number n =>
    obtain ⟨c, tail, ht, hc⟩ := n.text_head
    exact .inr ⟨rfl, c, tail, ht, opening_of_numberHead hc, numberHead_ne hc (by decide)⟩
  | _ => exact .inr ⟨rfl, _, _, rfl, by decide, by decide⟩

/-! ## A text -/

/-- Where a text is wanted, a value is read as `Value.asText` says. -/
theorem readString_written {v : Value} {s : List Char} (h : Written (.value v) s)
    {b rest : List Char} (hb : Blank b) (hrest : Delimited rest) :
    (readString (b ++ (s ++ rest))).ComesTo v.asText rest := by
  rcases h.text_or with ⟨t, spelling, rfl, rfl, ht⟩ | ⟨hv, c, tail, rfl, hopen, hquote⟩
  · simp only [List.cons_append, List.append_assoc]
    rw [readString, skipSpace_blank_cons hb (by decide)]
    simp only [if_true, List.nil_append, readText_spelled ht]
    rfl
  · obtain ⟨c', tail', mark, heq, hm⟩ := refuse_written (α := String × List Char) h .text hrest
    obtain ⟨rfl, rfl⟩ := List.cons.inj heq
    rw [hv, readString, List.cons_append, skipSpace_blank_cons hb hopen.1]
    simp only [if_neg hquote]
    exact ⟨mark, hm⟩

/-! ## A list of texts -/

/-- The first item follows blanks. -/
theorem nextItem_first {b : List Char} (hb : Blank b) {c : Char} (hc : Opening c)
    (s : List Char) : nextItem true (b ++ c :: s) = .ok (.entry (c :: s)) := by
  rw [nextItem, skipSpace_blank_cons hb hc.1]
  simp only [if_neg hc.2, if_true]

/-- Any later item follows a comma among blanks. -/
theorem nextItem_comma {b₁ b₂ : List Char} (h₁ : Blank b₁) (h₂ : Blank b₂) {c : Char}
    (hc : Opening c) (s : List Char) :
    nextItem false (b₁ ++ ',' :: (b₂ ++ c :: s)) = .ok (.entry (c :: s)) := by
  rw [nextItem, skipSpace_blank_cons h₁ (by decide)]
  simp only [skipSpace_blank_cons h₂ hc.1, if_neg hc.2]
  rfl

/-- A bracket ends the items. -/
theorem nextItem_closing (first : Bool) {b : List Char} (hb : Blank b) (s : List Char) :
    nextItem first (b ++ ']' :: s) = .ok (.closed s) := by
  rw [nextItem, skipSpace_blank_cons hb (by decide)]
  rfl

/-- At the bracket there are no more items. -/
theorem readItems_closing (first : Bool) {b : List Char} (hb : Blank b) (s : List Char) :
    readItems first (b ++ ']' :: s) = .ok ([], s) := by
  rw [readItems]
  split <;> simp_all [nextItem_closing first hb s]

/-- The items that follow a read one come before them in the list. -/
theorem readItems_entry {first : Bool} {s rest : List Char}
    (h : nextItem first s = .ok (.entry rest)) : readItems first s =
      match readString rest with
      | .error fault => .error fault
      | .ok (item, after) => (readItems false after).mapValue (item :: ·) := by
  rw [readItems]
  split
  · simp_all
  · simp_all
  · rename_i heq
    obtain rfl : rest = _ := by simpa [h] using heq
    split
    · rename_i hs
      rw [hs]
    · rename_i hs
      rw [hs]
      dsimp only
      rw [Reading.mapValue.eq_def]
      split <;> simp_all

/-- One item is read and then the others. -/
theorem readItems_value {first : Bool} {v : Value} {s t b : List Char} {result : Except Cause _}
    {rest : List Char} (hnext : nextItem first b = .ok (.entry (s ++ t)))
    (hv : Written (.value v) s) (ht : Delimited t)
    (hrest : (readItems false t).ComesTo result rest) :
    (readItems first b).ComesTo (v.asText >>= fun item => result.map (item :: ·)) rest := by
  rw [readItems_entry hnext]
  have hread := readString_written hv Blank.nil ht
  rw [List.nil_append] at hread
  cases htext : v.asText with
  -- a bad item ends the list, whatever follows it
  | error cause =>
    rw [htext] at hread
    obtain ⟨mark, hr⟩ := hread
    rw [hr]
    exact ⟨mark, rfl⟩
  | ok item =>
    rw [htext] at hread
    have hr : readString (s ++ t) = .ok (item, t) := hread
    rw [hr]
    exact hrest.mapValue (item :: ·)

/-- Values are read as texts one after the other. -/
theorem mapM_asText_cons (v : Value) (vs : List Value) :
    (v :: vs).mapM Value.asText =
      v.asText >>= fun item => (vs.mapM Value.asText).map (item :: ·) := by
  rw [List.mapM_cons]
  rfl

/-- Items are read as the values that are written. -/
theorem readItems_written {vs : List Value} {t : List Char} (h : Written (.items vs) t)
    (rest : List Char) : (readItems false (t ++ rest)).ComesTo (vs.mapM Value.asText) rest := by
  induction vs generalizing t with
  | nil =>
    cases h with
    | noItems hb =>
      rw [List.append_assoc]
      exact readItems_closing false hb rest
  | cons v vs ih =>
    cases h with
    | @items b₁ b₂ s t _ _ h₁ h₂ hv hvs =>
      obtain ⟨c, tail, hc, hopen⟩ := hv.head
      have hnext : nextItem false (b₁ ++ ',' :: (b₂ ++ (s ++ (t ++ rest)))) =
          .ok (.entry (s ++ (t ++ rest))) := by
        rw [hc]
        exact nextItem_comma h₁ h₂ hopen _
      simp only [List.cons_append, List.append_assoc]
      rw [mapM_asText_cons]
      exact readItems_value hnext hv (hvs.delimited_items rest) (ih hvs)

/-- Where a list of texts is wanted, a value is read as `Value.asTexts` says. -/
theorem readStrings_written {v : Value} {s : List Char} (h : Written (.value v) s)
    {b rest : List Char} (hb : Blank b) (hrest : Delimited rest) :
    (readStrings (b ++ (s ++ rest))).ComesTo v.asTexts rest := by
  rcases h.list_or with ⟨items, rfl⟩ | ⟨hv, c, tail, rfl, hopen, hlist⟩
  · cases h with
    | @emptyList gap hgap =>
      simp only [List.cons_append, List.append_assoc]
      rw [readStrings, skipSpace_blank_cons hb (by decide)]
      exact readItems_closing true hgap rest
    | @list gap s t v vs hgap hv hvs =>
      obtain ⟨c, tail, hc, hopen⟩ := hv.head
      have hnext : nextItem true (gap ++ (s ++ (t ++ rest))) = .ok (.entry (s ++ (t ++ rest))) := by
        rw [hc]
        exact nextItem_first hgap hopen _
      simp only [List.cons_append, List.append_assoc]
      rw [readStrings, skipSpace_blank_cons hb (by decide), Value.asTexts, mapM_asText_cons]
      exact readItems_value hnext hv (hvs.delimited_items rest) (readItems_written hvs rest)
  · obtain ⟨c', tail', mark, heq, hm⟩ :=
      refuse_written (α := List String × List Char) h .sequence hrest
    obtain ⟨rfl, rfl⟩ := List.cons.inj heq
    rw [hv, readStrings, List.cons_append, skipSpace_blank_cons hb hopen.1]
    simp only [if_neg hlist]
    exact ⟨mark, hm⟩

end BrokerAgent.Json
