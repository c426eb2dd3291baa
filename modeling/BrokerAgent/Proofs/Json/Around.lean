import BrokerAgent.Proofs.Json.Marks
import BrokerAgent.Proofs.Text.Place

/-!
# Objects around one member

An object with one member singled out: what stands before the value of that member, and what stands
behind it (`Around`). A value of the wrong shape is then reported in the one or in the other or at
the end of the value itself, and what the value is does not show in where the others are reported.
-/

namespace BrokerAgent.Json

/-! ## Members before another one -/

/-- Members as they stand before another one, each with a comma behind it. -/
inductive Leading : List (List Char × Value) → List Char → Prop
  | none : Leading [] []
  | more {b₁ b₂ k s t key : List Char} {v : Value} {ms : List (List Char × Value)}
      (hk : WrittenKey key k) (hv : Written (.value v) s) (h₁ : Blank b₁) (h₂ : Blank b₂)
      (hms : Leading ms t) : Leading ((key, v) :: ms) (k ++ s ++ b₁ ++ ',' :: b₂ ++ t)

/-- The reader of members is at the quote that opens a key. -/
def AtKey (first : Bool) (s t : List Char) : Prop :=
  ∃ rest, t = '"' :: rest ∧ nextMember first s = .ok (.entry rest)

/-- The first key of an object follows its brace and blanks. -/
theorem AtKey.first {b : List Char} (hb : Blank b) (rest : List Char) :
    AtKey true (b ++ '"' :: rest) ('"' :: rest) :=
  ⟨rest, rfl, nextMember_first hb rest⟩

/-- Any later key follows a comma among blanks. -/
theorem AtKey.comma {b₁ b₂ : List Char} (h₁ : Blank b₁) (h₂ : Blank b₂) (rest : List Char) :
    AtKey false (b₁ ++ ',' :: (b₂ ++ '"' :: rest)) ('"' :: rest) :=
  ⟨rest, rfl, nextMember_comma h₁ h₂ rest⟩

/-- What leads to a key begins with a quote, of that key or of an earlier one. -/
theorem Leading.head {ms : List (List Char × Value)} {t : List Char} (h : Leading ms t)
    (x : List Char) : ∃ rest, t ++ '"' :: x = '"' :: rest := by
  cases h with
  | none => exact ⟨x, rfl⟩
  | more hk =>
    obtain ⟨tail, rfl⟩ := hk.head
    exact ⟨_, rfl⟩

/-! ## One member -/

/-- Whether a member is refused depends on the fields that were given, not on their values. -/
theorem take_congr {g g' : Gathered} (hseen : g'.seen = g.seen) {m : List Char × Value} :
    match g.take m with
    | .error cause => g'.take m = .error cause
    | .ok next => ∃ next', g'.take m = .ok next' ∧ next'.seen = next.seen := by
  unfold Gathered.take
  rw [hseen]
  cases Field.ofName? (String.ofList m.1) with
  | none => exact ⟨g', rfl, hseen⟩
  | some field =>
    dsimp only
    by_cases hmem : field ∈ g.seen
    · rw [if_pos hmem, if_pos hmem]
    · rw [if_neg hmem, if_neg hmem]
      cases field with
      | protocols | addresses =>
        rw [Value.assign, Value.assign]
        cases m.2.asTexts with
        | error cause => rfl
        | ok texts => exact ⟨_, rfl, rfl⟩
      | id | secret =>
        rw [Value.assign, Value.assign]
        cases m.2.asText with
        | error cause => rfl
        | ok text => exact ⟨_, rfl, rfl⟩

/-- A member that is refused for its shape is refused in its value, whatever record there is. -/
theorem readMembers_member_marked {key k s : List Char} {v : Value} {g : Gathered}
    {found : Shape.Found} {wanted : Shape.Wanted} (hk : WrittenKey key k)
    (hv : Written (.value v) s) (hg : g.take (key, v) = .error (.wrongShape found wanted)) :
    ∃ u, u <:+ s ∧ (v.IsScalar → u = []) ∧
      ∀ g' : Gathered, g'.seen = g.seen → ∀ first t rest, Delimited rest →
        AtKey first t (k ++ (s ++ rest)) → readMembers g'.seen g'.record first t =
          .error ⟨.wrongShape found wanted, .here (u ++ rest)⟩ := by
  obtain @⟨spelling, b₁, b₂, hspell, h₁, h₂⟩ := hk
  cases hfield : Field.ofName? (String.ofList key) with
  | none =>
    rw [Gathered.take, hfield] at hg
    cases hg
  | some field =>
    rw [Gathered.take, hfield] at hg
    dsimp only at hg
    split at hg
    · cases hg
    · rename_i hseen
      obtain ⟨u, hu, hscalar, href⟩ := readField_marked hv (map_eq_error.1 hg) h₂
      refine ⟨u, hu, hscalar, ?_⟩
      rintro g' hg' first t rest hrest ⟨after, heq, hnext⟩
      simp only [List.cons_append, List.append_assoc, List.cons.injEq, true_and] at heq
      subst heq
      have hkey := readText_spelled hspell (b₁ ++ ':' :: (b₂ ++ (s ++ rest)))
      have hcolon := readColon_blank h₁ (b₂ ++ (s ++ rest))
      have hr := href g'.record rest hrest
      dsimp only at hr
      rw [readMembers_entry hnext hkey hcolon, hfield]
      dsimp only
      rw [hg', if_neg hseen, hr]

/-- A member that is taken leads to the next one. -/
theorem readMembers_member_taken {key k s : List Char} {v : Value} {g g' : Gathered}
    (hk : WrittenKey key k) (hv : Written (.value v) s) (hg : g.take (key, v) = .ok g')
    {first : Bool} {t rest : List Char} (hrest : Delimited rest)
    (ht : AtKey first t (k ++ (s ++ rest))) :
    readMembers g.seen g.record first t = readMembers g'.seen g'.record false rest := by
  obtain @⟨spelling, b₁, b₂, hspell, h₁, h₂⟩ := hk
  obtain ⟨after, heq, hnext⟩ := ht
  simp only [List.cons_append, List.append_assoc, List.cons.injEq, true_and] at heq
  subst heq
  have hstep := readMembers_member g hspell h₁ h₂ hv hrest hnext
  rw [hg] at hstep
  exact hstep

/-! ## Members before -/

/-- Members that are taken lead to what follows them. -/
theorem readMembers_leading {ms : List (List Char × Value)} {lead : List Char}
    (h : Leading ms lead) {g g' : Gathered} (hms : ms.foldlM Gathered.take g = .ok g')
    {first : Bool} {t x : List Char} (ht : AtKey first t (lead ++ '"' :: x)) :
    ∃ first' t', AtKey first' t' ('"' :: x) ∧
      readMembers g.seen g.record first t = readMembers g'.seen g'.record first' t' := by
  induction h generalizing g first t with
  | none =>
    obtain rfl := Except.ok.inj hms
    exact ⟨first, t, ht, rfl⟩
  | @more b₁ b₂ k s lead key v ms hk hv h₁ h₂ hlead ih =>
    obtain ⟨next, htake, hms⟩ := foldlM_take_cons hms
    simp only [List.append_assoc, List.cons_append] at ht
    obtain ⟨rest, hrest⟩ := hlead.head x
    rw [readMembers_member_taken hk hv htake (delimited_blank_cons h₁ (by decide)) ht]
    refine ih hms ?_
    rw [hrest]
    exact .comma h₁ h₂ rest

/-- Members of which one is refused for its shape are refused in the same place, whatever follows
them. -/
theorem readMembers_leading_marked {ms : List (List Char × Value)} {lead : List Char}
    (h : Leading ms lead) {g : Gathered} {found : Shape.Found} {wanted : Shape.Wanted}
    (hms : ms.foldlM Gathered.take g = .error (.wrongShape found wanted)) :
    ∃ u, u <:+ lead ∧ ∀ first t x, AtKey first t (lead ++ '"' :: x) →
      readMembers g.seen g.record first t =
        .error ⟨.wrongShape found wanted, .here (u ++ '"' :: x)⟩ := by
  induction h generalizing g with
  | none => cases hms
  | @more b₁ b₂ k s lead key v ms hk hv h₁ h₂ hlead ih =>
    have hdelimited : ∀ x, Delimited (b₁ ++ ',' :: (b₂ ++ (lead ++ '"' :: x))) := fun x =>
      delimited_blank_cons h₁ (by decide)
    rw [List.foldlM_cons, bind_eq_error] at hms
    rcases hms with htake | ⟨next, htake, hms⟩
    · obtain ⟨u, ⟨w, hw⟩, -, href⟩ := readMembers_member_marked hk hv htake
      refine ⟨u ++ (b₁ ++ ',' :: (b₂ ++ lead)), ⟨k ++ w, ?_⟩, fun first t x ht => ?_⟩
      · rw [← hw]
        simp only [List.append_assoc, List.cons_append]
      · simp only [List.append_assoc, List.cons_append] at ht ⊢
        exact href g rfl first t _ (hdelimited x) ht
    · obtain ⟨u, hu, href⟩ := ih hms
      refine ⟨u, hu.trans (List.suffix_append _ _), fun first t x ht => ?_⟩
      simp only [List.append_assoc, List.cons_append] at ht
      obtain ⟨rest, hrest⟩ := hlead.head x
      rw [readMembers_member_taken hk hv htake (hdelimited x) ht]
      refine href false _ x ?_
      rw [hrest]
      exact .comma h₁ h₂ rest

/-! ## Members behind -/

/-- Members of which one is refused for its shape are refused in the same place, whatever record was
gathered before them. -/
theorem readMembers_marked {ms : List (List Char × Value)} {t : List Char}
    (h : Written (.members ms) t) {g : Gathered} {found : Shape.Found} {wanted : Shape.Wanted}
    (hms : ms.foldlM Gathered.take g = .error (.wrongShape found wanted)) :
    ∃ w u, w ≠ [] ∧ t = w ++ u ∧ ∀ g' : Gathered, g'.seen = g.seen → ∀ rest,
      readMembers g'.seen g'.record false (t ++ rest) =
        .error ⟨.wrongShape found wanted, .here (u ++ rest)⟩ := by
  induction ms generalizing t g with
  | nil => cases hms
  | cons m ms ih =>
    cases h with
    | @members b₁ b₂ k s t key v _ h₁ h₂ hk hv hmore =>
      have hdelimited : ∀ rest, Delimited (t ++ rest) := hmore.delimited_members
      have hkey : ∀ x, AtKey false (b₁ ++ ',' :: (b₂ ++ (k ++ x))) (k ++ x) := by
        obtain ⟨tail, rfl⟩ := hk.head
        exact fun x => .comma h₁ h₂ (tail ++ x)
      rw [List.foldlM_cons, bind_eq_error] at hms
      rcases hms with htake | ⟨next, htake, hms⟩
      · obtain ⟨u, ⟨w, hw⟩, -, href⟩ := readMembers_member_marked hk hv htake
        refine ⟨b₁ ++ ',' :: (b₂ ++ (k ++ w)), u ++ t, by simp, ?_, fun g' hg' rest => ?_⟩
        · rw [← hw]
          simp only [List.append_assoc, List.cons_append]
        · simp only [List.append_assoc, List.cons_append]
          exact href g' hg' false _ _ (hdelimited rest) (hkey _)
      · obtain ⟨w, u, -, rfl, href⟩ := ih hmore hms
        refine ⟨b₁ ++ ',' :: (b₂ ++ (k ++ (s ++ w))), u, by simp, ?_, fun g' hg' rest => ?_⟩
        · simp only [List.append_assoc, List.cons_append]
        · have htake' := take_congr hg' (m := (key, v))
          rw [htake] at htake'
          obtain ⟨next', htake', hseen⟩ := htake'
          simp only [List.append_assoc, List.cons_append] at hdelimited href ⊢
          rw [readMembers_member_taken hk hv htake' (hdelimited rest) (hkey _)]
          exact href next' hseen rest

/-! ## Whole texts -/

/-- What stands before and behind the value of a member of an object. -/
inductive Around (before : List (List Char × Value)) (key : List Char)
    (after : List (List Char × Value)) : List Char → List Char → Prop
  | mk {b₀ b b₁ lead k t : List Char} (h₀ : Blank b₀) (hb : Blank b) (hlead : Leading before lead)
      (hk : WrittenKey key k) (hafter : Written (.members after) t) (h₁ : Blank b₁) :
      Around before key after (b₀ ++ '\x7b' :: b ++ lead ++ k) (t ++ b₁)

namespace Around

variable {before after : List (List Char × Value)} {key pre post : List Char}

/-- With a value between the two parts, the text holds the object with all its members. -/
theorem document (h : Around before key after pre post) {v : Value} {s : List Char}
    (hv : Written (.value v) s) :
    Document (.object (before ++ (key, v) :: after)) (pre ++ s ++ post) := by
  obtain @⟨b₀, b, b₁, lead, k, t, h₀, hb, hlead, hk, hafter, h₁⟩ := h
  have hmore : ∀ {ms lead c₁ c₂}, Leading ms lead → Blank c₁ → Blank c₂ →
      Written (.members (ms ++ (key, v) :: after)) (c₁ ++ ',' :: c₂ ++ (lead ++ k ++ s ++ t)) := by
    intro ms lead c₁ c₂ hlead
    induction hlead generalizing c₁ c₂ with
    | none =>
      intro hc₁ hc₂
      have hw := Written.members hc₁ hc₂ hk hv hafter
      simpa only [List.append_assoc, List.cons_append, List.nil_append] using hw
    | more hk' hv' hd₁ hd₂ _ ih =>
      intro hc₁ hc₂
      have hw := Written.members hc₁ hc₂ hk' hv' (ih hd₁ hd₂)
      simpa only [List.append_assoc, List.cons_append] using hw
  have hobject : Written (.value (.object (before ++ (key, v) :: after)))
      ('\x7b' :: b ++ (lead ++ k ++ s ++ t)) := by
    cases hlead with
    | none =>
      have hw := Written.object hb hk hv hafter
      simpa only [List.append_assoc, List.cons_append, List.nil_append] using hw
    | more hk' hv' hd₁ hd₂ hlead =>
      have hw := Written.object hb hk' hv' (hmore hlead hd₁ hd₂)
      simpa only [List.append_assoc, List.cons_append] using hw
  have hd := Document.mk h₀ hobject h₁
  simpa only [List.append_assoc, List.cons_append] using hd

/-- What is refused for its shape before the value is reported there. -/
theorem refused_before (h : Around before key after pre post) {found : Shape.Found}
    {wanted : Shape.Wanted}
    (hbefore : before.foldlM Gathered.take {} = .error (.wrongShape found wanted)) :
    ∃ w u, pre = w ++ u ∧ ∀ s, settings (pre ++ s ++ post) =
      .error ⟨.wrongShape found wanted, .here (u ++ (s ++ post))⟩ := by
  obtain @⟨b₀, b, b₁, lead, k, t, h₀, hb, hlead, hk, hafter, h₁⟩ := h
  obtain ⟨u, ⟨w, rfl⟩, href⟩ := readMembers_leading_marked hlead hbefore
  obtain ⟨tail, rfl⟩ := hk.head
  refine ⟨b₀ ++ '\x7b' :: b ++ w, u ++ '"' :: tail, ?_, fun s => settings_of_error ?_⟩
  · simp only [List.append_assoc, List.cons_append]
  · obtain ⟨rest, hrest⟩ := hlead.head (tail ++ (s ++ (t ++ b₁)))
    simp only [List.append_assoc, List.cons_append] at hrest href ⊢
    rw [readSettings, skipSpace_blank_cons h₀ (by decide)]
    refine href true _ _ ?_
    rw [hrest]
    exact .first hb rest

/-- Members that are taken lead to the value. -/
theorem readSettings_eq (h : Around before key after pre post) {g : Gathered}
    (hbefore : before.foldlM Gathered.take {} = .ok g) :
    ∃ k t b, WrittenKey key k ∧ Written (.members after) t ∧ Blank b ∧ post = t ++ b ∧
      ∀ s, ∃ first x, AtKey first x (k ++ (s ++ post)) ∧
        readSettings (pre ++ s ++ post) = readMembers g.seen g.record first x := by
  obtain @⟨b₀, b, b₁, lead, k, t, h₀, hb, hlead, hk, hafter, h₁⟩ := h
  refine ⟨k, t, b₁, hk, hafter, h₁, rfl, fun s => ?_⟩
  obtain ⟨tail, rfl⟩ := hk.head
  obtain ⟨rest, hrest⟩ := hlead.head (tail ++ (s ++ (t ++ b₁)))
  have hfirst : AtKey true (b ++ (lead ++ '"' :: (tail ++ (s ++ (t ++ b₁)))))
      (lead ++ '"' :: (tail ++ (s ++ (t ++ b₁)))) := by
    rw [hrest]
    exact .first hb rest
  obtain ⟨first, x, hx, hread⟩ := readMembers_leading hlead hbefore hfirst
  refine ⟨first, x, hx, ?_⟩
  simp only [List.append_assoc, List.cons_append]
  rw [readSettings, skipSpace_blank_cons h₀ (by decide)]
  exact hread

/-- A value without parts that is refused for its shape is reported at its end. -/
theorem refused_itself (h : Around before key after pre post) {g : Gathered}
    (hbefore : before.foldlM Gathered.take {} = .ok g) {v : Value} {s : List Char}
    (hv : Written (.value v) s) (hscalar : v.IsScalar) {found : Shape.Found}
    {wanted : Shape.Wanted} (hg : g.take (key, v) = .error (.wrongShape found wanted)) :
    settings (pre ++ s ++ post) = .error ⟨.wrongShape found wanted, .here post⟩ := by
  obtain ⟨k, t, b, hk, hafter, -, rfl, hread⟩ := h.readSettings_eq hbefore
  obtain ⟨first, x, hx, hread⟩ := hread s
  obtain ⟨u, -, hu, href⟩ := readMembers_member_marked hk hv hg
  obtain rfl := hu hscalar
  exact settings_of_error (hread.trans (href g rfl first x _ (hafter.delimited_members b) hx))

/-- What is refused for its shape behind the value is reported there. -/
theorem refused_behind (h : Around before key after pre post) {g next : Gathered}
    (hbefore : before.foldlM Gathered.take {} = .ok g) {found : Shape.Found}
    {wanted : Shape.Wanted}
    (hafter : after.foldlM Gathered.take next = .error (.wrongShape found wanted)) :
    ∃ w u, w ≠ [] ∧ post = w ++ u ∧ ∀ v s g', Written (.value v) s → g.take (key, v) = .ok g' →
      g'.seen = next.seen → settings (pre ++ s ++ post) =
        .error ⟨.wrongShape found wanted, .here u⟩ := by
  obtain ⟨k, t, b, hk, ht, -, rfl, hread⟩ := h.readSettings_eq hbefore
  obtain ⟨w, u, hw, rfl, href⟩ := readMembers_marked ht hafter
  refine ⟨w, u ++ b, hw, List.append_assoc w u b, fun v s g' hv hg hseen => ?_⟩
  obtain ⟨first, x, hx, hread⟩ := hread s
  have htaken := readMembers_member_taken hk hv hg (ht.delimited_members b) hx
  exact settings_of_error (hread.trans (htaken.trans (href g' hseen b)))

end Around

end BrokerAgent.Json
