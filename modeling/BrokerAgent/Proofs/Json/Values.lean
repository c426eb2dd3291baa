import BrokerAgent.Json.Skip
import BrokerAgent.Proofs.Json.Numbers
import BrokerAgent.Proofs.Json.Texts

/-!
# Values are passed over as they are written

However deep a value is and however it is spelled, passing over it ends behind its last character
(`skipFrom_written`). The reader keeps the open lists and objects itself, so the law is stated for
every stack of them: a value leaves the stack as it was, and what follows an entry ends by taking
one frame off it.
-/

namespace BrokerAgent.Json

/-! ## First characters -/

/-- No blank, and not the end of a list. -/
def Opening (c : Char) : Prop :=
  isSpace c = false ∧ c ≠ ']'

instance (c : Char) : Decidable (Opening c) :=
  inferInstanceAs (Decidable (_ ∧ _))

/-- A number begins with its sign or its first digit. -/
theorem NumberText.text_cases (n : NumberText) :
    n.negative = true ∧ n.text = '-' :: n.unsigned ∨
      n.negative = false ∧ ∃ c s, c.isDigit = true ∧ n.unsigned = c :: s ∧ n.text = c :: s := by
  cases hn : n.negative with
  | true => exact .inl ⟨rfl, if_pos hn⟩
  | false =>
    obtain ⟨c, digits, hw, hc, -⟩ := n.whole_ok.exists_cons
    have hu : n.unsigned = c :: (digits ++ n.fractionText ++ n.exponentText) := by
      rw [NumberText.unsigned, hw]
      rfl
    refine .inr ⟨rfl, c, _, hc, hu, ?_⟩
    rw [NumberText.text, hn, if_neg Bool.false_ne_true, hu]

/-- A number begins with a minus sign or a digit. -/
theorem NumberText.text_head (n : NumberText) :
    ∃ c tail, n.text = c :: tail ∧ (c = '-' ∨ c.isDigit = true) := by
  rcases n.text_cases with ⟨-, ht⟩ | ⟨-, c, tail, hc, -, ht⟩
  · exact ⟨_, _, ht, .inl rfl⟩
  · exact ⟨c, tail, ht, .inr hc⟩

theorem numberHead_ne {c d : Char} (hc : c = '-' ∨ c.isDigit = true)
    (hd : d ≠ '-' ∧ d.isDigit = false) : c ≠ d := by
  rcases hc with rfl | hc
  · exact hd.1.symm
  · exact ne_of_isDigit hc hd.2

/-- The first character of a number begins a value. -/
theorem opening_of_numberHead {c : Char} (hc : c = '-' ∨ c.isDigit = true) : Opening c := by
  have h : ∀ d, d ≠ '-' ∧ d.isDigit = false → c ≠ d := fun d hd => numberHead_ne hc hd
  refine ⟨?_, h ']' (by decide)⟩
  simp [isSpace, h ' ' (by decide), h '\n' (by decide), h '\t' (by decide), h '\r' (by decide)]

/-- A value begins with a character that begins values. -/
theorem Written.head {v : Value} {s : List Char} (h : Written (.value v) s) :
    ∃ c tail, s = c :: tail ∧ Opening c := by
  cases h with
  | number n =>
    obtain ⟨c, tail, ht, hc⟩ := n.text_head
    exact ⟨c, tail, ht, opening_of_numberHead hc⟩
  | _ => exact ⟨_, _, rfl, by decide⟩

/-- A character that no number goes on with ends one. -/
theorem delimited_cons {c : Char} {s : List Char}
    (hc : c.isDigit = false ∧ c ≠ '.' ∧ c ≠ 'e' ∧ c ≠ 'E') : Delimited (c :: s) := by
  rintro d hd
  obtain rfl : c = d := Option.some.inj hd
  exact hc

/-- Blanks and the characters that stand between values do not continue a number. -/
theorem delimited_blank_cons {b : List Char} (hb : Blank b) {c : Char} {s : List Char}
    (hc : c = ',' ∨ c = ']' ∨ c = '\x7d') : Delimited (b ++ c :: s) := by
  cases b with
  | nil => rcases hc with rfl | rfl | rfl <;> exact delimited_cons (by decide)
  | cons d b =>
    rcases hb d List.mem_cons_self with rfl | rfl | rfl | rfl <;> exact delimited_cons (by decide)

/-- What follows an item ends a number. -/
theorem Written.delimited_items {vs : List Value} {t : List Char} (h : Written (.items vs) t)
    (rest : List Char) : Delimited (t ++ rest) := by
  cases h with
  | noItems hb =>
    rw [List.append_assoc]
    exact delimited_blank_cons hb (.inr (.inl rfl))
  | items h₁ h₂ hv hvs =>
    simp only [List.append_assoc, List.cons_append]
    exact delimited_blank_cons h₁ (.inl rfl)

/-- What follows the value of a member ends a number. -/
theorem Written.delimited_members {ms : List (List Char × Value)} {t : List Char}
    (h : Written (.members ms) t) (rest : List Char) : Delimited (t ++ rest) := by
  cases h with
  | noMembers hb =>
    rw [List.append_assoc]
    exact delimited_blank_cons hb (.inr (.inr rfl))
  | members h₁ h₂ hk hv hms =>
    simp only [List.append_assoc, List.cons_append]
    exact delimited_blank_cons h₁ (.inl rfl)

/-! ## One step of passing over -/

section Steps

variable {frames : List Frame} {frame : Frame} {s rest rest' : List Char} {c d : Char}

theorem skipFrom_end (s : List Char) : skipFrom .after [] s = .ok s := by
  rw [skipFrom]

/-- What is done with the first character of a value. -/
theorem skipFrom_value (h : skipSpace s = c :: rest) :
    skipFrom .value frames s =
      if c = '[' then
        match skipSpace rest with
        | [] => faultAt .endInList []
        | d :: rest =>
          if d = ']' then skipFrom .after frames rest
          else skipFrom .value (.list :: frames) (d :: rest)
      else if c = '\x7b' then
        match skipSpace rest with
        | [] => faultAt .endInObject []
        | d :: rest =>
          if d = '\x7d' then skipFrom .after frames rest
          else
            match skipName (d :: rest) with
            | .error fault => .error fault
            | .ok rest => skipFrom .value (.object :: frames) rest
      else
        match skipScalar c rest with
        | .error fault => .error fault
        | .ok rest => skipFrom .after frames rest := by
  rw [skipFrom]
  split
  · simp_all
  · rename_i heq
    obtain ⟨rfl, rfl⟩ := List.cons.inj (h.symm.trans heq)
    by_cases hlist : c = '['
    · rw [if_pos hlist, if_pos hlist]
      split <;> rename_i hs <;> simp only [hs]
    · rw [if_neg hlist, if_neg hlist]
      by_cases hobject : c = '\x7b'
      · rw [if_pos hobject, if_pos hobject]
        split <;> rename_i hs <;> simp only [hs]
        split
        · rfl
        · split <;> rename_i hn <;> simp only [hn]
      · rw [if_neg hobject, if_neg hobject]
        split <;> rename_i hn <;> simp only [hn]

/-- What is done with the first character after a value. -/
theorem skipFrom_after (h : skipSpace s = c :: rest) :
    skipFrom .after (frame :: frames) s =
      if c = ',' then
        match frame with
        | .list => skipFrom .value (.list :: frames) rest
        | .object =>
          match skipName rest with
          | .error fault => .error fault
          | .ok rest => skipFrom .value (.object :: frames) rest
      else if c = frame.closing then skipFrom .after frames rest
      else faultAt frame.commaExpected (c :: rest) := by
  rw [skipFrom]
  split
  · simp_all
  · rename_i heq
    obtain ⟨rfl, rfl⟩ := List.cons.inj (h.symm.trans heq)
    cases frame with
    | list => rfl
    | object =>
      dsimp only
      split
      · split <;> rename_i hn <;> simp only [hn]
      · rfl

/-- A bracket or brace ends the innermost list or object. -/
theorem skipFrom_closing (h : skipSpace s = frame.closing :: rest) :
    skipFrom .after (frame :: frames) s = skipFrom .after frames rest := by
  have hne : frame.closing ≠ ',' := by cases frame <;> decide
  rw [skipFrom_after h, if_neg hne, if_pos rfl]

/-- A comma in a list leads to its next item. -/
theorem skipFrom_comma_list (h : skipSpace s = ',' :: rest) :
    skipFrom .after (.list :: frames) s = skipFrom .value (.list :: frames) rest := by
  rw [skipFrom_after h, if_pos rfl]

/-- A comma in an object leads to the value of its next member. -/
theorem skipFrom_comma_object (h : skipSpace s = ',' :: rest) (hn : skipName rest = .ok rest') :
    skipFrom .after (.object :: frames) s = skipFrom .value (.object :: frames) rest' := by
  rw [skipFrom_after h, if_pos rfl, hn]

theorem skipFrom_emptyList (h : skipSpace s = '[' :: rest) (h' : skipSpace rest = ']' :: rest') :
    skipFrom .value frames s = skipFrom .after frames rest' := by
  rw [skipFrom_value h, if_pos rfl, h']
  exact if_pos rfl

/-- A bracket begins a list. -/
theorem skipFrom_list (h : skipSpace s = '[' :: rest) (h' : skipSpace rest = d :: rest')
    (hd : d ≠ ']') :
    skipFrom .value frames s = skipFrom .value (.list :: frames) (d :: rest') := by
  rw [skipFrom_value h, if_pos rfl, h']
  exact if_neg hd

theorem skipFrom_emptyObject (h : skipSpace s = '\x7b' :: rest)
    (h' : skipSpace rest = '\x7d' :: rest') :
    skipFrom .value frames s = skipFrom .after frames rest' := by
  rw [skipFrom_value h, if_neg (by decide), if_pos rfl, h']
  exact if_pos rfl

/-- A brace begins an object. -/
theorem skipFrom_object (h : skipSpace s = '\x7b' :: rest) (h' : skipSpace rest = d :: rest')
    (hd : d ≠ '\x7d') {after : List Char} (hn : skipName (d :: rest') = .ok after) :
    skipFrom .value frames s = skipFrom .value (.object :: frames) after := by
  rw [skipFrom_value h, if_neg (by decide), if_pos rfl, h']
  dsimp only
  rw [if_neg hd, hn]

/-- A value without parts is passed over at once. -/
theorem skipFrom_scalar (h : skipSpace s = c :: rest) (hlist : c ≠ '[') (hobject : c ≠ '\x7b')
    (hn : skipScalar c rest = .ok rest') :
    skipFrom .value frames s = skipFrom .after frames rest' := by
  rw [skipFrom_value h, if_neg hlist, if_neg hobject, hn]

end Steps

/-! ## Names and values without parts -/

/-- A key begins with a quote. -/
theorem WrittenKey.head {key k : List Char} (hk : WrittenKey key k) : ∃ tail, k = '"' :: tail := by
  obtain ⟨-, -, -⟩ := hk
  exact ⟨_, rfl⟩

/-- Blanks before a name say nothing. -/
theorem skipName_blank {b : List Char} (hb : Blank b) (s : List Char) :
    skipName (b ++ s) = skipName s := by
  rw [skipName, skipName, skipSpace_append hb]

/-- A key and its colon are passed over; the blanks after the colon are left. -/
theorem skipName_written {key k : List Char} (hk : WrittenKey key k) :
    ∃ b, Blank b ∧ ∀ rest, skipName (k ++ rest) = .ok (b ++ rest) := by
  obtain ⟨hs, h₁, h₂⟩ := hk
  refine ⟨_, h₂, fun rest => ?_⟩
  simp only [List.cons_append, List.append_assoc]
  rw [skipName, skipSpace_cons (by decide)]
  simp only [if_true, skipText_spelled hs,
    skipSpace_blank_cons h₁ (by decide : isSpace ':' = false)]

/-- A number is passed over as it is written. -/
theorem skipScalar_number (n : NumberText) {rest : List Char} (hrest : Delimited rest) :
    ∃ c s, n.text = c :: s ∧ c ≠ '[' ∧ c ≠ '\x7b' ∧ skipScalar c (s ++ rest) = .ok rest := by
  have hskip := skipNumber_written n hrest
  rcases n.text_cases with ⟨-, ht⟩ | ⟨-, c, s, hc, hu, ht⟩
  · refine ⟨'-', _, ht, by decide, by decide, ?_⟩
    simp [skipScalar, hskip]
  · have h : ∀ d, d.isDigit = false → c ≠ d := fun d hd => ne_of_isDigit hc hd
    refine ⟨c, s, ht, h _ (by decide), h _ (by decide), ?_⟩
    rw [hu] at hskip
    simp [skipScalar, hc, h 'n' (by decide), h 't' (by decide), h 'f' (by decide),
      h '"' (by decide), h '-' (by decide), ← hskip]

/-! ## Whole values -/

/-- What passing over a piece does, whatever stands before and after it. -/
def PassedOver : Piece → List Char → Prop
  | .value _, s => ∀ frames b rest, Blank b → Delimited rest →
      skipFrom .value frames (b ++ (s ++ rest)) = skipFrom .after frames rest
  | .items _, s => ∀ frames rest,
      skipFrom .after (.list :: frames) (s ++ rest) = skipFrom .after frames rest
  | .members _, s => ∀ frames rest,
      skipFrom .after (.object :: frames) (s ++ rest) = skipFrom .after frames rest

/-- A value without parts whose characters are passed over is passed over. -/
theorem passedOver_scalar {v : Value} {c : Char} {s : List Char} (hspace : isSpace c = false)
    (hlist : c ≠ '[') (hobject : c ≠ '\x7b') (hskip : ∀ rest, skipScalar c (s ++ rest) = .ok rest) :
    PassedOver (.value v) (c :: s) := by
  intro frames b rest hb _
  exact skipFrom_scalar (skipSpace_blank_cons hb hspace (s ++ rest)) hlist hobject (hskip rest)

/-- Passing over a piece ends behind it: the induction is on how the piece is written, so the end
of a list or an object is reached for every depth at once. -/
theorem passedOver {piece : Piece} {s : List Char} (h : Written piece s) : PassedOver piece s := by
  induction h with
  | null => exact passedOver_scalar (by decide) (by decide) (by decide) fun rest => rfl
  | true => exact passedOver_scalar (by decide) (by decide) (by decide) fun rest => rfl
  | false => exact passedOver_scalar (by decide) (by decide) (by decide) fun rest => rfl
  -- only a number depends on what follows it
  | number n =>
    intro frames b rest hb hrest
    obtain ⟨c, s, ht, hlist, hobject, hskip⟩ := skipScalar_number n hrest
    obtain ⟨d, _, hd, hopen⟩ := (Written.number n).head
    obtain ⟨rfl, rfl⟩ := List.cons.inj (ht.symm.trans hd)
    rw [ht]
    exact skipFrom_scalar (skipSpace_blank_cons hb hopen.1 (s ++ rest)) hlist hobject hskip
  | @text t spelling ht =>
    have hskip : ∀ rest, skipScalar '"' (spelling ++ ['"'] ++ rest) = .ok rest := by
      intro rest
      rw [List.append_assoc]
      exact skipText_spelled ht rest
    exact passedOver_scalar (by decide) (by decide) (by decide) hskip
  | @emptyList gap hgap =>
    intro frames b rest hb _
    have h : skipSpace (b ++ '[' :: (gap ++ [']'] ++ rest)) = '[' :: (gap ++ [']'] ++ rest) :=
      skipSpace_blank_cons hb (by decide) _
    have h' : skipSpace (gap ++ [']'] ++ rest) = ']' :: rest := by
      rw [List.append_assoc]
      exact skipSpace_blank_cons hgap (by decide) _
    exact skipFrom_emptyList h h'
  -- one frame more for the items, which the end of the list takes off again
  | @list gap s t v vs hgap hv hvs ihv ihvs =>
    intro frames b rest hb _
    obtain ⟨c, tail, hc, hopen⟩ := hv.head
    have hvalue := ihv (.list :: frames) [] (t ++ rest) Blank.nil (hvs.delimited_items rest)
    have h : skipSpace (b ++ '[' :: (gap ++ (s ++ (t ++ rest)))) =
        '[' :: (gap ++ (s ++ (t ++ rest))) := skipSpace_blank_cons hb (by decide) _
    have h' : skipSpace (gap ++ (s ++ (t ++ rest))) = c :: (tail ++ (t ++ rest)) := by
      rw [hc]
      exact skipSpace_blank_cons hgap hopen.1 _
    simp only [List.cons_append, List.append_assoc]
    rw [skipFrom_list h h' hopen.2, ← List.cons_append, ← hc]
    exact hvalue.trans (ihvs frames rest)
  | @noItems gap hgap =>
    intro frames rest
    rw [List.append_assoc]
    exact skipFrom_closing (skipSpace_blank_cons hgap (by decide) rest)
  | @items b₁ b₂ s t v vs h₁ h₂ hv hvs ihv ihvs =>
    intro frames rest
    have hvalue := ihv (.list :: frames) b₂ (t ++ rest) h₂ (hvs.delimited_items rest)
    simp only [List.cons_append, List.append_assoc]
    rw [skipFrom_comma_list (skipSpace_blank_cons h₁ (by decide) _), hvalue]
    exact ihvs frames rest
  | @emptyObject gap hgap =>
    intro frames b rest hb _
    have h : skipSpace (b ++ '\x7b' :: (gap ++ ['\x7d'] ++ rest)) =
        '\x7b' :: (gap ++ ['\x7d'] ++ rest) := skipSpace_blank_cons hb (by decide) _
    have h' : skipSpace (gap ++ ['\x7d'] ++ rest) = '\x7d' :: rest := by
      rw [List.append_assoc]
      exact skipSpace_blank_cons hgap (by decide) _
    exact skipFrom_emptyObject h h'
  -- the first name is passed over before the frame is opened, later ones inside it
  | @object gap k s t key v ms hgap hk hv hms ihv ihms =>
    intro frames b rest hb _
    obtain ⟨after, hafter, hname⟩ := skipName_written hk
    obtain ⟨tail, hquote⟩ := hk.head
    have hvalue := ihv (.object :: frames) after (t ++ rest) hafter (hms.delimited_members rest)
    have h : skipSpace (b ++ '\x7b' :: (gap ++ (k ++ (s ++ (t ++ rest))))) =
        '\x7b' :: (gap ++ (k ++ (s ++ (t ++ rest)))) := skipSpace_blank_cons hb (by decide) _
    have h' : skipSpace (gap ++ (k ++ (s ++ (t ++ rest)))) =
        '"' :: (tail ++ (s ++ (t ++ rest))) := by
      rw [hquote]
      exact skipSpace_blank_cons hgap (by decide) _
    have hn := hname (s ++ (t ++ rest))
    rw [hquote] at hn
    simp only [List.cons_append, List.append_assoc]
    rw [skipFrom_object h h' (by decide) hn]
    exact hvalue.trans (ihms frames rest)
  | @noMembers gap hgap =>
    intro frames rest
    rw [List.append_assoc]
    exact skipFrom_closing (skipSpace_blank_cons hgap (by decide) rest)
  | @members b₁ b₂ k s t key v ms h₁ h₂ hk hv hms ihv ihms =>
    intro frames rest
    obtain ⟨after, hafter, hname⟩ := skipName_written hk
    have hvalue := ihv (.object :: frames) after (t ++ rest) hafter (hms.delimited_members rest)
    have hn : skipName (b₂ ++ (k ++ (s ++ (t ++ rest)))) = .ok (after ++ (s ++ (t ++ rest))) := by
      rw [skipName_blank h₂]
      exact hname _
    simp only [List.cons_append, List.append_assoc]
    rw [skipFrom_comma_object (skipSpace_blank_cons h₁ (by decide) _) hn, hvalue]
    exact ihms frames rest

/-- Passing over a value ends behind its last character. -/
theorem skipFrom_written {v : Value} {s : List Char} (h : Written (.value v) s) {b rest : List Char}
    (hb : Blank b) (hrest : Delimited rest) :
    skipFrom .value [] (b ++ (s ++ rest)) = .ok rest := by
  rw [passedOver h [] b rest hb hrest, skipFrom_end]

end BrokerAgent.Json
