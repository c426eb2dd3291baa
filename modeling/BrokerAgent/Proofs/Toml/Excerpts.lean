import BrokerAgent.Proofs.Json.Reports
import BrokerAgent.Proofs.Log
import BrokerAgent.Proofs.Text.Place
import BrokerAgent.Proofs.Toml.Replacing
import BrokerAgent.Toml.Report
import Mathlib.Data.List.Induction

/-!
# What a report shows of a document

The report about a value of the wrong shape shows the line on which the value begins. Nothing but
line feeds is needed to find the other lines, so whatever stands above and below a value on one line
is shown alike when that value is replaced (`elsewhere`). Reports about different lines are told
apart, even in a log (`line_eq_of_logged_eq`).
-/

namespace BrokerAgent.Toml

/-! ## Lines -/

theorem lastLine_concat (s : List Char) (c : Char) :
    lastLine (s ++ [c]) =
      if c = '\n' then ((lastLine s).1 + 1, []) else ((lastLine s).1, c :: (lastLine s).2) := by
  rw [lastLine, List.foldl_append]
  rfl

/-- Lines are counted by line feeds. -/
theorem lastLine_fst (s : List Char) : (lastLine s).1 = s.count '\n' + 1 := by
  induction s using List.reverseRecOn with
  | nil => rfl
  | append_singleton s c ih =>
    rw [lastLine_concat, List.count_append, List.count_singleton]
    split
    · simp_all
    · simp_all

/-- What stands before a line feed counts only by its lines. -/
theorem lastLine_newline (a b : List Char) :
    lastLine (a ++ '\n' :: b) = ((lastLine a).1 + (lastLine b).1, (lastLine b).2) := by
  induction b using List.reverseRecOn with
  | nil => rw [lastLine_concat, if_pos rfl]; rfl
  | append_singleton b c ih =>
    rw [← List.cons_append, ← List.append_assoc, lastLine_concat, lastLine_concat, ih]
    split <;> rfl

/-- A text that stays on its line belongs to that line. -/
theorem takeWhile_line {s : List Char} (hs : '\n' ∉ s) (rest : List Char) :
    (s ++ rest).takeWhile (· ≠ '\n') = s ++ rest.takeWhile (· ≠ '\n') :=
  List.takeWhile_append_of_pos fun _ hc => decide_eq_true fun h => hs (h ▸ hc)

/-- A line ends with its line feed. -/
theorem takeWhile_newline (s rest : List Char) :
    (s ++ '\n' :: rest).takeWhile (· ≠ '\n') = s.takeWhile (· ≠ '\n') := by
  induction s with
  | nil => rfl
  | cons c s ih =>
    rw [List.cons_append, List.takeWhile_cons, List.takeWhile_cons, ih]

/-! ## Excerpts -/

/-- The excerpt of a stretch depends on the lines before it, on the line that it begins on and on
how long it is. -/
theorem excerpt_append (before : List Char) (span : Span) :
    Excerpt.of (before ++ span.start) span =
      let (line, read) := lastLine before
      let whole := read.reverse ++ span.start.takeWhile (· ≠ '\n')
      ⟨line, read.length, whole, max 1 (min span.size (Utf8.size whole - read.length))⟩ := by
  rw [Excerpt.of, List.length_append, Nat.add_sub_cancel, List.take_left]

/-- Stretches that agree in all this are shown alike. -/
theorem excerpt_eq {before before' : List Char} {a b : Span}
    (hbefore : lastLine before = lastLine before')
    (hline : a.start.takeWhile (· ≠ '\n') = b.start.takeWhile (· ≠ '\n'))
    (hsize : a.size = b.size) :
    Excerpt.of (before ++ a.start) a = Excerpt.of (before' ++ b.start) b := by
  rw [excerpt_append, excerpt_append, hbefore, hline, hsize]

/-- The line is found by the line feeds before the stretch. -/
theorem line_excerpt (before : List Char) (span : Span) :
    (Excerpt.of (before ++ span.start) span).line = before.count '\n' + 1 := by
  rw [excerpt_append]
  exact lastLine_fst before

/-- What follows both ends of a stretch does not count. -/
theorem size_span (u u' rest : List Char) :
    Span.size ⟨u ++ rest, u' ++ rest⟩ = Utf8.size u - Utf8.size u' := by
  rw [Span.size, Utf8.size_append, Utf8.size_append, Nat.add_sub_add_right]

/-- The excerpt of a value shows what stands before the value on its line, the value, and what
stands behind it. -/
theorem excerpt_of {s : List Char} (hs : '\n' ∉ s) (pre post : List Char) :
    (Excerpt.of (pre ++ s ++ post) ⟨s ++ post, post⟩).line = (lastLine pre).1 ∧
    (Excerpt.of (pre ++ s ++ post) ⟨s ++ post, post⟩).before = (lastLine pre).2.length ∧
    (Excerpt.of (pre ++ s ++ post) ⟨s ++ post, post⟩).text =
      (lastLine pre).2.reverse ++ (s ++ post.takeWhile (· ≠ '\n')) := by
  have hexcerpt := excerpt_append pre ⟨s ++ post, post⟩
  rw [List.append_assoc, hexcerpt]
  exact ⟨rfl, rfl, by rw [takeWhile_line hs]⟩

/-! ## Other lines than that of a value -/

section Elsewhere

variable {pre post s₁ s₂ : List Char}

/-- What stands below a value on one line is shown alike whatever the value is. -/
theorem excerpt_below (h₁ : '\n' ∉ s₁) (h₂ : '\n' ∉ s₂) {a : Span} {y : List Char} (hy : '\n' ∈ y)
    (hpost : post = y ++ a.start) :
    Excerpt.of (pre ++ s₁ ++ post) a = Excerpt.of (pre ++ s₂ ++ post) a ∧
      (Excerpt.of (pre ++ s₁ ++ post) a).line ≠ (lastLine pre).1 := by
  obtain ⟨y₁, y₂, rfl⟩ := List.append_of_mem hy
  have htext : ∀ s, pre ++ s ++ post = pre ++ s ++ y₁ ++ '\n' :: y₂ ++ a.start := by
    intro s
    rw [hpost]
    simp only [List.append_assoc]
  have hline : (lastLine (pre ++ s₁ ++ y₁)).1 = (lastLine (pre ++ s₂ ++ y₁)).1 := by
    simp only [lastLine_fst, List.count_append, List.count_eq_zero_of_not_mem h₁,
      List.count_eq_zero_of_not_mem h₂]
  rw [htext, htext]
  constructor
  · exact excerpt_eq (by rw [lastLine_newline, lastLine_newline, hline]) rfl rfl
  · rw [line_excerpt, lastLine_fst]
    simp only [List.count_append, List.count_cons_self]
    omega

/-- So is what stands above it. -/
theorem excerpt_above {mark x w : List Char} (hpre : pre = mark ++ (x ++ '\n' :: w)) {a b : Span}
    (h : (Lockstep.shared x '\n' (w ++ (s₁ ++ post)) (w ++ (s₂ ++ post))).Along a b) :
    Excerpt.of (pre ++ s₁ ++ post) a = Excerpt.of (pre ++ s₂ ++ post) b ∧
      (Excerpt.of (pre ++ s₁ ++ post) a).line ≠ (lastLine pre).1 := by
  obtain ⟨⟨p, u, hx, hstart, hstart'⟩, ⟨_, u', -, hstop, hstop'⟩⟩ := h
  have htext : ∀ s, pre ++ s ++ post = mark ++ p ++ (u ++ '\n' :: (w ++ (s ++ post))) := by
    intro s
    rw [hpre, hx]
    simp only [List.append_assoc, List.cons_append]
  rw [htext, htext, ← hstart, ← hstart']
  constructor
  · refine excerpt_eq rfl ?_ ?_
    · rw [hstart, hstart', takeWhile_newline, takeWhile_newline]
    · obtain ⟨start, stop⟩ := a
      obtain ⟨start', stop'⟩ := b
      rw [show start = _ from hstart, show stop = _ from hstop, show start' = _ from hstart',
        show stop' = _ from hstop', size_span, size_span]
  · rw [line_excerpt, lastLine_fst, hpre, hx]
    simp only [List.count_append, List.count_cons_self]
    omega

/-- Documents in which a secret has been replaced by another. Stretches correspond if they are shown
alike and begin on another line than the secret; headers come below it. -/
def elsewhere (pre post : List Char) (h₁ : '\n' ∉ s₁) (h₂ : '\n' ∉ s₂) : Likeness where
  span a b := Excerpt.of (pre ++ s₁ ++ post) a = Excerpt.of (pre ++ s₂ ++ post) b ∧
    (Excerpt.of (pre ++ s₁ ++ post) a).line ≠ (lastLine pre).1
  header a b := a = b ∧ ∃ y, '\n' ∈ y ∧ post = y ++ a.start
  free name := name = "secret".toList
  span_of_header := by
    rintro a _ ⟨rfl, y, hy, hpost⟩
    exact excerpt_below h₁ h₂ hy hpost
  header_join := by
    rintro a _ a' _ ⟨rfl, hbelow⟩ ⟨rfl, -⟩
    exact ⟨rfl, hbelow⟩

/-- A document in which a secret is replaced by another one is alike on the other lines. -/
theorem document_elsewhere (h₁ : '\n' ∉ s₁) (h₂ : '\n' ∉ s₂) {t : Table} {key : Key}
    {v₁ v₂ : Scalar} (h : document (pre ++ s₁ ++ post) = some t)
    (hmem : (key, .scalar v₁ ⟨s₁ ++ post, post⟩) ∈ t.entries) (hkey : key.name = "secret".toList)
    (hwritten : readScalar (s₂ ++ post) = some (v₂, post)) :
    ∃ t', document (pre ++ s₂ ++ post) = some t' ∧
      Table.Like (elsewhere pre post h₁ h₂) (elsewhere pre post h₁ h₂).span t t' := by
  rw [List.append_assoc] at h ⊢
  refine document_replaced h hmem hwritten hkey (fun mark x w hpre a b => excerpt_above hpre) ?_
  rintro y q rfl a b ⟨⟨hab, ⟨u, hu⟩⟩, ⟨hab', -⟩⟩
  refine ⟨?_, y ++ '\n' :: u, by simp, by rw [← hu]; simp⟩
  obtain ⟨start, stop⟩ := a
  obtain rfl : start = _ := hab
  obtain rfl : stop = _ := hab'
  rfl

end Elsewhere

/-! ## The text of a report -/

/-- What a report shows before the line of the text. -/
def excerptHead (line before : Nat) : List Char :=
  let line := toString line
  let margin := String.ofList (List.replicate (line.length + 1) ' ')
  ("TOML parse error at line " ++ line ++ ", column " ++ toString (before + 1) ++ "\n" ++
    margin ++ "|\n" ++ line ++ " | ").toList

/-- A report shows the line of its excerpt on a line. -/
theorem toList_text_wrongShape (found : Shape.Found) (wanted : Shape.Wanted) (e : Excerpt) :
    ∃ rest, (Report.wrongShape found wanted e).text.toList =
      excerptHead e.line e.before ++ (e.text ++ '\n' :: rest) := by
  have happend : ∀ (head : String) (t : List Char) (n a b c d e f g : String),
      (head ++ String.ofList t ++ n ++ a ++ b ++ c ++ d ++ e ++ f ++ g).toList =
        head.toList ++ (t ++ (n.toList ++ (a ++ b ++ c ++ d ++ e ++ f ++ g).toList)) := by
    simp only [String.toList_append, String.toList_ofList, List.append_assoc, implies_true]
  exact ⟨_, happend _ e.text "\n" _ _ _ _ _ _ _⟩

/-- It begins with the number of that line. -/
theorem excerptHead_eq (line before : Nat) : ∃ rest, excerptHead line before =
    "TOML parse error at line ".toList ++ (Nat.toDigits 10 line ++ ',' :: rest) := by
  have happend : ∀ a b c d e f g h : String,
      (a ++ b ++ ", column " ++ c ++ d ++ e ++ f ++ g ++ h).toList =
        a.toList ++ (b.toList ++ ',' :: (" column " ++ c ++ d ++ e ++ f ++ g ++ h).toList) := by
    have hcomma : ", column ".toList = ',' :: " column ".toList := by decide
    simp only [String.toList_append, hcomma, List.append_assoc, List.cons_append, implies_true]
  exact ⟨_, by rw [← toList_toString_nat]; exact happend _ _ _ _ _ _ _ _⟩

/-- A number before a comma ends where no more digits follow it. -/
theorem eq_of_begins_with_number {m n : Nat} {a b : List Char}
    (h : Nat.toDigits 10 m ++ ',' :: a = Nat.toDigits 10 n ++ ',' :: b) : m = n := by
  have htake : ∀ n (a : List Char),
      (Nat.toDigits 10 n ++ ',' :: a).takeWhile Char.isDigit = Nat.toDigits 10 n := by
    intro n a
    rw [List.takeWhile_append_of_pos fun c hc =>
      Nat.isDigit_of_mem_toDigits (by decide) (by decide) hc]
    exact List.append_nil _
  have hnumber : Nat.toDigits 10 m = Nat.toDigits 10 n := by
    rw [← htake m a, h, htake n b]
  rw [← Nat.ofDigitChars_ten_toDigits (n := m), hnumber, Nat.ofDigitChars_ten_toDigits]

/-- Reports that a log shows alike are about the same line. -/
theorem line_eq_of_logged_eq {found found' : Shape.Found} {wanted wanted' : Shape.Wanted}
    {e e' : Excerpt} (h : logged (Report.wrongShape found wanted e).text.toList =
      logged (Report.wrongShape found' wanted' e').text.toList) : e.line = e'.line := by
  have hlogged : ∀ (found : Shape.Found) (wanted : Shape.Wanted) (e : Excerpt), ∃ rest,
      logged (Report.wrongShape found wanted e).text.toList =
        "TOML parse error at line ".toList ++ (Nat.toDigits 10 e.line ++ ',' :: rest) := by
    intro found wanted e
    obtain ⟨rest, htext⟩ := toList_text_wrongShape found wanted e
    obtain ⟨more, hhead⟩ := excerptHead_eq e.line e.before
    refine ⟨logged more ++ logged (e.text ++ '\n' :: rest), ?_⟩
    rw [htext, hhead, logged_append, logged_append, logged_append,
      logged_of_noControl (by decide : Text.NoControl "TOML parse error at line ".toList),
      logged_of_noControl (noControl_toDigits e.line)]
    simp only [List.append_assoc]
    rfl
  obtain ⟨rest, htext⟩ := hlogged found wanted e
  obtain ⟨rest', htext'⟩ := hlogged found' wanted' e'
  rw [htext, htext'] at h
  exact eq_of_begins_with_number (List.append_cancel_left h)

end BrokerAgent.Toml
