import BrokerAgent.Proofs.Json.Members
import BrokerAgent.Proofs.Toml.Texts
import BrokerAgent.Toml.Settings

/-!
# Values of plain TOML are read as they are written

A text or a list of texts is read up to its end, and what it is read as gives the texts that it was
written for (`Means`). The loop over the open lists is taken step by step; in a list of texts there
is only one open list.
-/

namespace BrokerAgent.Toml

/-- A value as it was read says the same as a value as it was written: wherever the one gives a text
or a list of texts, the other gives the same. -/
def Means (node : Node) (v : Json.Value) : Prop :=
  (∀ text key, v.asText = .ok text → stringOf key node = .ok text) ∧
    ∀ texts key, v.asTexts = .ok texts → stringsOf key node = .ok texts

/-- A text as it is read in front of `rest`. -/
def textNode (t rest : List Char) : Node :=
  .scalar (.text t) ⟨Json.writeText t ++ rest, rest⟩

/-! ## Steps of the loop -/

section Steps

variable {s rest next start : List Char} {frames : List Frame} {node : Node} {items : List Node}

theorem readFrom_done (node : Node) (s : List Char) :
    readFrom (.after node) [] s = some (node, s) := by
  rw [readFrom]

/-- A bracket begins a list. -/
theorem readFrom_opened (hroom : frames.length < maxDepth) (hs : skipLines false s = next)
    (hnext : next.head? ≠ some ']') :
    readFrom .value frames ('[' :: s) = readFrom .value (.list ('[' :: s) [] :: frames) next := by
  conv =>
    lhs
    rw [readFrom, if_pos rfl, if_pos hroom]
  split
  · rename_i heq
    rw [← hs, heq] at hnext
    exact absurd rfl hnext
  · rw [hs]

/-- A list may be empty. -/
theorem readFrom_empty (hroom : frames.length < maxDepth) (hs : skipLines false s = ']' :: rest) :
    readFrom .value frames ('[' :: s) =
      readFrom (.after (closeList ('[' :: s) [] rest)) frames rest := by
  conv =>
    lhs
    rw [readFrom, if_pos rfl, if_pos hroom]
  split
  · rename_i heq
    obtain ⟨-, rfl⟩ := List.cons.inj (hs.symm.trans heq)
    rfl
  · rename_i hne
    exact absurd hs (hne rest)

/-- A comma leads to the next item. -/
theorem readFrom_comma (hs : skipLines false s = ',' :: rest) (hrest : skipLines false rest = next)
    (hnext : next.head? ≠ some ']') :
    readFrom (.after node) (.list start items :: frames) s =
      readFrom .value (.list start (node :: items) :: frames) next := by
  conv =>
    lhs
    rw [readFrom]
  split
  · rename_i heq
    obtain ⟨-, rfl⟩ := List.cons.inj (hs.symm.trans heq)
    split
    · rename_i heq
      rw [← hrest, heq] at hnext
      exact absurd rfl hnext
    · rw [hrest]
  · simp_all
  · simp_all

/-- A bracket ends the list. -/
theorem readFrom_closed (hs : skipLines false s = ']' :: rest) :
    readFrom (.after node) (.list start items :: frames) s =
      readFrom (.after (closeList start (node :: items) rest)) frames rest := by
  conv =>
    lhs
    rw [readFrom]
  split
  · simp_all
  · rename_i heq
    obtain ⟨-, rfl⟩ := List.cons.inj (hs.symm.trans heq)
    rfl
  · simp_all

/-- A text is read whole. -/
theorem readFrom_text {t : List Char} (ht : '\x7f' ∉ t) (hrest : rest.head? ≠ some '"')
    (frames : List Frame) :
    readFrom .value frames (Json.writeText t ++ rest) =
      readFrom (.after (textNode t rest)) frames rest := by
  have hread := readScalar_written ht hrest
  rw [textNode, writeText_append] at *
  conv =>
    lhs
    rw [readFrom, if_neg (by decide), if_neg (by decide)]
  split
  · simp_all
  · simp_all

end Steps

/-! ## Texts and lists of texts -/

/-- A text means the same in both formats. -/
theorem means_text (t rest : List Char) : Means (textNode t rest) (.text t) := by
  constructor
  · intro text key h
    cases h
    rfl
  · intro texts key h
    cases h

/-- Items that say the same one after the other. -/
def AllMean (nodes : List Node) (vs : List Json.Value) : Prop :=
  ∀ texts key, vs.mapM Json.Value.asText = .ok texts → nodes.mapM (stringOf key) = .ok texts

theorem AllMean.nil : AllMean [] [] := by
  intro texts key h
  cases h
  rfl

theorem AllMean.cons {nodes : List Node} {vs : List Json.Value} (t rest : List Char)
    (h : AllMean nodes vs) : AllMean (textNode t rest :: nodes) (.text t :: vs) := by
  intro texts key ht
  rw [Json.mapM_asText_cons] at ht
  cases hvs : vs.mapM Json.Value.asText with
  | error cause =>
    rw [hvs] at ht
    cases ht
  | ok texts =>
    rw [hvs] at ht
    cases ht
    rw [List.mapM_cons, h texts key hvs]
    rfl

/-- A list means what its items mean. -/
theorem AllMean.list {nodes : List Node} {vs : List Json.Value} (h : AllMean nodes vs)
    (span : Span) : Means (.list nodes span) (.list vs) := by
  constructor
  · intro text key ht
    cases ht
  · exact h

/-- Blanks lead to a text. -/
theorem skipLines_text {b : List Char} (hb : Blanks b) (t s : List Char) :
    skipLines false (b ++ (Json.writeText t ++ s)) = Json.writeText t ++ s := by
  rw [writeText_append]
  exact skipLines_blanks_cons hb (by decide) _

/-- A text does not close the list in which it stands. -/
theorem head_writeText (t s : List Char) : (Json.writeText t ++ s).head? ≠ some ']' := by
  rw [writeText_append]
  simp

/-- What follows an item does not begin with a quote. -/
theorem WrittenItems.head {vs : List Json.Value} {u : List Char} (h : WrittenItems vs u)
    (rest : List Char) : (u ++ rest).head? ≠ some '"' := by
  cases h with
  | last hb =>
    rw [List.append_assoc]
    exact head_blanks_append hb (by decide) (by simp)
  | more h₁ h₂ ht hvs =>
    simp only [List.append_assoc, List.cons_append]
    exact head_blanks_append h₁ (by decide) (by simp)

/-- Behind an item the open list goes on with the items that follow and ends at its bracket. -/
theorem readFrom_items {vs : List Json.Value} {u : List Char} (h : WrittenItems vs u)
    (rest start : List Char) (frames : List Frame) (node : Node) (items : List Node) :
    ∃ nodes, AllMean nodes vs ∧
      readFrom (.after node) (.list start items :: frames) (u ++ rest) =
        readFrom (.after (.list (items.reverse ++ node :: nodes) ⟨start, rest⟩)) frames rest := by
  -- on the items that follow; the ones before them are kept with the latest first
  induction h generalizing node items with
  | @last b hb =>
    refine ⟨[], AllMean.nil, ?_⟩
    have hclosing := skipLines_blanks_cons hb (by decide : ']' ∉ _) rest
    rw [List.append_assoc, List.singleton_append, readFrom_closed hclosing, closeList,
      List.reverse_cons]
  | @more b₁ b₂ t u vs h₁ h₂ ht hvs ih =>
    obtain ⟨nodes, hnodes, hread⟩ := ih (textNode t (u ++ rest)) (node :: items)
    refine ⟨textNode t (u ++ rest) :: nodes, hnodes.cons t _, ?_⟩
    simp only [List.append_assoc, List.cons_append]
    rw [readFrom_comma (skipLines_blanks_cons h₁ (by decide) _) (skipLines_text h₂ t _)
      (head_writeText t _), readFrom_text ht (hvs.head rest), hread, List.reverse_cons,
      List.append_assoc, List.singleton_append]

/-- A value is read up to its end, and what it is read as says the same. -/
theorem readValue_written {v : Json.Value} {t : List Char} (h : WrittenValue v t)
    {rest : List Char} (hrest : rest.head? ≠ some '"') :
    ∃ node, readValue (t ++ rest) = some (node, rest) ∧ Means node v := by
  have hroom : ([] : List Frame).length < maxDepth := by decide
  cases h with
  | @text t ht =>
    refine ⟨textNode t rest, ?_, means_text t rest⟩
    rw [readValue, readFrom_text ht hrest, readFrom_done]
  | @emptyList b hb =>
    refine ⟨closeList ('[' :: (b ++ ']' :: rest)) [] rest, ?_, AllMean.nil.list _⟩
    rw [List.cons_append, List.cons_append, List.append_assoc, List.singleton_append, readValue,
      readFrom_empty hroom (skipLines_blanks_cons hb (by decide) rest), readFrom_done]
  | @list b t u vs hb ht hvs =>
    obtain ⟨nodes, hnodes, hread⟩ := readFrom_items hvs rest
      ('[' :: (b ++ (Json.writeText t ++ (u ++ rest)))) [] (textNode t (u ++ rest)) []
    refine ⟨.list (textNode t (u ++ rest) :: nodes)
      ⟨'[' :: (b ++ (Json.writeText t ++ (u ++ rest))), rest⟩, ?_, (hnodes.cons t _).list _⟩
    simp only [List.append_assoc, List.cons_append]
    rw [readValue, readFrom_opened hroom (skipLines_text hb t _) (head_writeText t _),
      readFrom_text ht (hvs.head rest), hread, readFrom_done]
    rfl

end BrokerAgent.Toml
