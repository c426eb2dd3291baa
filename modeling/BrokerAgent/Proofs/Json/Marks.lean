import BrokerAgent.Proofs.Json.Loading

/-!
# Where a value of the wrong shape is reported

A value without parts is reported behind its last character, a list or an object before its first
one, and a list of texts at its first item that is none. In any case the point lies in the value or
at its end, and it is the same point whatever follows the value (`readField_marked`).
-/

namespace BrokerAgent.Json

/-- Neither a list nor an object. -/
def Value.IsScalar : Value → Prop
  | .list _ | .object _ => False
  | _ => True

/-- What is written is refused for its shape, with the part `u` of it and all that follows still to
be read. -/
def RefusedBefore {α : Type} (u : List Char) (read : List Char → Except Fault α) (s : List Char)
    (found : Shape.Found) (wanted : Shape.Wanted) : Prop :=
  ∀ rest, Delimited rest →
    read (s ++ rest) = .error ⟨.wrongShape found wanted, .here (u ++ rest)⟩

/-! ## Refused values -/

/-- A value refused for its shape has the name that the refusal gives it. -/
theorem found_of_refusal {v : Value} {wanted wanted' : Shape.Wanted} {found : Shape.Found}
    (h : v.refusal wanted = .wrongShape found wanted') :
    v.found = .ok found ∧ wanted' = wanted := by
  cases v with
  | number n =>
    rw [refusal_number] at h
    cases hn : n.number with
    | ok number =>
      rw [hn] at h
      cases h
      exact ⟨map_eq_ok.2 ⟨number, hn, rfl⟩, rfl⟩
    | error cause =>
      -- a number that cannot be read is not refused for its shape
      obtain ⟨rfl, -⟩ := number_eq_error hn
      rw [hn] at h
      cases h
  | _ =>
    cases h
    exact ⟨rfl, rfl⟩

/-- A value without parts is refused at its end, one with parts within itself. -/
theorem refuse_marked {α : Type} {v : Value} {s : List Char} (h : Written (.value v) s)
    (wanted : Shape.Wanted) {found : Shape.Found} (hf : v.found = .ok found) :
    ∃ c tail u, s = c :: tail ∧ u <:+ s ∧ (v.IsScalar → u = []) ∧
      ∀ rest, Delimited rest → refuse wanted c (tail ++ rest) =
        (.error ⟨.wrongShape found wanted, .here (u ++ rest)⟩ : Except Fault α) := by
  cases h with
  | null | true | false =>
    cases hf
    exact ⟨_, _, [], rfl, List.nil_suffix, fun _ => rfl, fun _ _ => rfl⟩
  | number n =>
    obtain ⟨number, hn, rfl⟩ := map_eq_ok.1 hf
    have hread : ∀ rest, Delimited rest →
        readNumber n.negative (n.unsigned ++ rest) = .ok (number, rest) := by
      intro rest hrest
      have hcomes := readNumber_written n hrest
      rw [hn] at hcomes
      exact hcomes
    rcases n.text_cases with ⟨hneg, ht⟩ | ⟨hneg, c, tail, hc, hu, ht⟩
    · refine ⟨'-', _, [], ht, List.nil_suffix, fun _ => rfl, fun rest hrest => ?_⟩
      have hr := hread rest hrest
      rw [hneg] at hr
      rw [refuse, if_neg (by decide), if_neg (by decide), if_neg (by decide), if_pos rfl, hr]
      rfl
    · have hne : ∀ d, d.isDigit = false → c ≠ d := fun d hd => ne_of_isDigit hc hd
      refine ⟨c, tail, [], ht, List.nil_suffix, fun _ => rfl, fun rest hrest => ?_⟩
      have hr := hread rest hrest
      rw [hneg, hu, List.cons_append] at hr
      rw [refuse, if_neg (hne 'n' (by decide)), if_neg (hne 't' (by decide)),
        if_neg (hne 'f' (by decide)), if_neg (hne '-' (by decide)), if_pos hc, hr]
      rfl
  | @text t spelling ht =>
    cases hf
    refine ⟨'"', spelling ++ ['"'], [], rfl, List.nil_suffix, fun _ => rfl, fun rest _ => ?_⟩
    have hread : readText (spelling ++ ['"'] ++ rest) = .ok (t, rest) := by
      rw [List.append_assoc]
      exact readText_spelled ht rest
    rw [refuse, if_neg (by decide), if_neg (by decide), if_neg (by decide), if_neg (by decide),
      if_neg (by decide), if_pos rfl, hread]
    rfl
  -- a bracket is refused before it is passed
  | emptyList | list | emptyObject | object =>
    cases hf
    exact ⟨_, _, _, rfl, List.suffix_rfl, False.elim, fun _ _ => rfl⟩

/-- Where a text is wanted, what is none is refused in itself. -/
theorem readString_marked {v : Value} {s : List Char} (h : Written (.value v) s)
    {found : Shape.Found} {wanted : Shape.Wanted}
    (hv : v.asText = .error (.wrongShape found wanted))
    {b : List Char} (hb : Blank b) :
    ∃ u, u <:+ s ∧ (v.IsScalar → u = []) ∧
      RefusedBefore u (fun t => readString (b ++ t)) s found wanted := by
  rcases h.text_or with ⟨t, spelling, rfl, -, -⟩ | ⟨href, c, tail, rfl, hopen, hquote⟩
  · cases hv
  · rw [href] at hv
    obtain ⟨hfound, rfl⟩ := found_of_refusal (Except.error.inj hv)
    obtain ⟨c', tail', u, heq, hu, hscalar, hrefuse⟩ :=
      refuse_marked (α := String × List Char) h .text hfound
    obtain ⟨rfl, rfl⟩ := List.cons.inj heq
    refine ⟨u, hu, hscalar, fun rest hrest => ?_⟩
    dsimp only
    rw [readString, List.cons_append, skipSpace_blank_cons hb hopen.1]
    simp only [if_neg hquote]
    exact hrefuse rest hrest

/-! ## Lists of texts -/

/-- The items that begin with a value are refused at that value or behind it. -/
theorem readItems_item_marked {v : Value} {vs : List Value} {s t : List Char}
    {found : Shape.Found} {wanted : Shape.Wanted} (hv : Written (.value v) s)
    (ht : Written (.items vs) t)
    (hvs : (v :: vs).mapM Value.asText = .error (.wrongShape found wanted))
    (hlater : vs.mapM Value.asText = .error (.wrongShape found wanted) →
      ∃ u, u <:+ t ∧ ∀ rest, readItems false (t ++ rest) =
        .error ⟨.wrongShape found wanted, .here (u ++ rest)⟩) :
    ∃ u, u <:+ s ++ t ∧ ∀ first b rest, nextItem first b = .ok (.entry (s ++ (t ++ rest))) →
      readItems first b = .error ⟨.wrongShape found wanted, .here (u ++ rest)⟩ := by
  rw [mapM_asText_cons, bind_eq_error] at hvs
  rcases hvs with hitem | ⟨item, hitem, hmore⟩
  · obtain ⟨u, hu, -, href⟩ := readString_marked hv hitem Blank.nil
    have hut : u ++ t <:+ s ++ t := by
      obtain ⟨w, rfl⟩ := hu
      exact ⟨w, (List.append_assoc w u t).symm⟩
    refine ⟨u ++ t, hut, fun first b rest hnext => ?_⟩
    have hr : readString (s ++ (t ++ rest)) = _ := href (t ++ rest) (ht.delimited_items rest)
    rw [readItems_entry hnext, hr, List.append_assoc]
  · obtain ⟨u, hu, href⟩ := hlater (map_eq_error.1 hmore)
    refine ⟨u, hu.trans (List.suffix_append s t), fun first b rest hnext => ?_⟩
    have hread := readString_written hv Blank.nil (ht.delimited_items rest)
    rw [hitem] at hread
    have hr : readString (s ++ (t ++ rest)) = .ok (item, t ++ rest) := hread
    rw [readItems_entry hnext, hr]
    dsimp only
    rw [href]
    rfl

/-- What follows an item is refused at the first item that is no text. -/
theorem readItems_marked {vs : List Value} {t : List Char} (h : Written (.items vs) t)
    {found : Shape.Found} {wanted : Shape.Wanted}
    (hvs : vs.mapM Value.asText = .error (.wrongShape found wanted)) :
    ∃ u, u <:+ t ∧ ∀ rest, readItems false (t ++ rest) =
      .error ⟨.wrongShape found wanted, .here (u ++ rest)⟩ := by
  induction vs generalizing t with
  | nil => cases hvs
  | cons v vs ih =>
    cases h with
    | @items b₁ b₂ s t _ _ h₁ h₂ hv ht =>
      obtain ⟨u, hu, href⟩ := readItems_item_marked hv ht hvs (ih ht)
      obtain ⟨c, tail, hc, hopen⟩ := hv.head
      have hsuffix : s ++ t <:+ b₁ ++ ',' :: b₂ ++ s ++ t := by
        rw [List.append_assoc]
        exact List.suffix_append _ _
      refine ⟨u, hu.trans hsuffix, fun rest => ?_⟩
      refine href false _ rest ?_
      simp only [List.cons_append, List.append_assoc]
      rw [hc]
      exact nextItem_comma h₁ h₂ hopen _

/-- Where a list of texts is wanted, what is none is refused in itself. -/
theorem readStrings_marked {v : Value} {s : List Char} (h : Written (.value v) s)
    {found : Shape.Found} {wanted : Shape.Wanted}
    (hv : v.asTexts = .error (.wrongShape found wanted)) {b : List Char} (hb : Blank b) :
    ∃ u, u <:+ s ∧ (v.IsScalar → u = []) ∧
      RefusedBefore u (fun t => readStrings (b ++ t)) s found wanted := by
  rcases h.list_or with ⟨items, rfl⟩ | ⟨href, c, tail, rfl, hopen, hlist⟩
  · cases h with
    | emptyList => cases hv
    | @list gap s t v vs hgap hitem ht =>
      obtain ⟨u, hu, href⟩ := readItems_item_marked hitem ht hv (readItems_marked ht)
      obtain ⟨c, tail, hc, hopen⟩ := hitem.head
      have hsuffix : s ++ t <:+ '[' :: gap ++ s ++ t := by
        rw [List.append_assoc]
        exact List.suffix_append _ _
      refine ⟨u, hu.trans hsuffix, False.elim, fun rest _ => ?_⟩
      simp only [List.cons_append, List.append_assoc]
      rw [readStrings, skipSpace_blank_cons hb (by decide)]
      refine href true _ rest ?_
      rw [hc]
      exact nextItem_first hgap hopen _
  · rw [href] at hv
    obtain ⟨hfound, rfl⟩ := found_of_refusal (Except.error.inj hv)
    obtain ⟨c', tail', u, heq, hu, hscalar, hrefuse⟩ :=
      refuse_marked (α := List String × List Char) h .sequence hfound
    obtain ⟨rfl, rfl⟩ := List.cons.inj heq
    refine ⟨u, hu, hscalar, fun rest hrest => ?_⟩
    dsimp only
    rw [readStrings, List.cons_append, skipSpace_blank_cons hb hopen.1]
    simp only [if_neg hlist]
    exact hrefuse rest hrest

/-! ## Fields -/

/-- The value of a field is refused in itself, whatever the record is. -/
theorem readField_marked {v : Value} {s : List Char} (h : Written (.value v) s) {field : Field}
    {record : Settings} {found : Shape.Found} {wanted : Shape.Wanted}
    (hv : v.assign field record = .error (.wrongShape found wanted)) {b : List Char}
    (hb : Blank b) :
    ∃ u, u <:+ s ∧ (v.IsScalar → u = []) ∧
      ∀ record, RefusedBefore u (fun t => readField field record (b ++ t)) s found wanted := by
  cases field with
  | protocols | addresses =>
    obtain ⟨u, hu, hscalar, href⟩ := readStrings_marked h (map_eq_error.1 hv) hb
    refine ⟨u, hu, hscalar, fun record rest hrest => ?_⟩
    have hr := href rest hrest
    dsimp only [readField] at hr ⊢
    rw [hr]
    rfl
  | id | secret =>
    obtain ⟨u, hu, hscalar, href⟩ := readString_marked h (map_eq_error.1 hv) hb
    refine ⟨u, hu, hscalar, fun record rest hrest => ?_⟩
    have hr := href rest hrest
    dsimp only [readField] at hr ⊢
    rw [hr]
    rfl

end BrokerAgent.Json
