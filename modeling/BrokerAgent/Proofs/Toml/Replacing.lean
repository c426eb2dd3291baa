import BrokerAgent.Proofs.Toml.Agreement
import BrokerAgent.Proofs.Toml.Lines
import BrokerAgent.Proofs.Toml.Source

/-!
# A value is replaced by another

Of a document that gives a key of one part a value without parts, that value may be written in
another way. The lines above are read as before, since no reader looks past the end of its line, and
so are the lines below. What comes of it is a document that is alike but for the one value
(`document_replaced`).
-/

namespace BrokerAgent.Toml

/-! ## Two ways to have a part in common -/

namespace Lockstep

/-- All points of a text, each by itself. -/
def same (text : List Char) : Lockstep where
  Together s t := s = t ∧ s <:+ text
  border := '\n'
  gap := 0
  right := []
  nil := by
    rintro t ⟨rfl, -⟩
    rfl
  cons := by
    rintro c s t ⟨rfl, h⟩
    exact ⟨s, rfl, .inl ⟨rfl, (List.suffix_cons c s).trans h⟩⟩

/-- The points of a beginning, after which the one text goes on as `left` and the other as `right`.
-/
def shared (top : List Char) (border : Char) (left right : List Char) : Lockstep where
  Together s t := ∃ p w, top = p ++ w ∧ s = w ++ border :: left ∧ t = w ++ border :: right
  border := border
  gap := left.length + 1
  right := right
  nil := by
    rintro t ⟨p, w, -, hs, -⟩
    cases w <;> cases hs
  cons := by
    rintro c s t ⟨p, w, rfl, hs, rfl⟩
    cases w with
    | nil =>
      obtain ⟨rfl, rfl⟩ := List.cons.inj hs
      exact ⟨right, rfl, .inr ⟨rfl, rfl, rfl⟩⟩
    | cons d w =>
      obtain ⟨rfl, rfl⟩ := List.cons.inj hs
      exact ⟨w ++ border :: right, rfl, .inl ⟨p ++ [c], w, by simp, rfl, rfl⟩⟩

/-- Where the first text is at the border, the second one is. -/
theorem eq_of_shared {top left right t : List Char} {border : Char}
    (h : (shared top border left right).Together (border :: left) t) : t = border :: right := by
  obtain ⟨p, w, -, hs, rfl⟩ := h
  have hw : w = [] := by
    have hlength := congrArg List.length hs
    simp only [List.length_cons, List.length_append] at hlength
    exact List.length_eq_zero_iff.1 (by omega)
  rw [hw, List.nil_append]

theorem same_refl (text : List Char) : (same text).Together text text :=
  ⟨rfl, List.suffix_refl text⟩

end Lockstep

/-- Documents that may differ in everything but their shape. -/
def Likeness.loose : Likeness where
  span _ _ := True
  header _ _ := True
  free _ := False
  span_of_header := id
  header_join _ _ := trivial

variable {s t r z : List Char}

/-- What is left behind a key is the end of the text. -/
theorem suffix_of_readParts {room : Nat} {p : List Key × Key}
    (h : readParts room s = some (p, r)) : r <:+ s := by
  obtain ⟨_, _, -, -, -, hr⟩ := @like_of_readParts .loose (.same s) s s r (fun _ _ _ => trivial)
    room p (Lockstep.same_refl s) h (Nat.zero_le _)
  exact hr

theorem suffix_of_readBareStatement {st : Statement} (h : readBareStatement s = some (st, r)) :
    r <:+ s := by
  obtain ⟨_, _, -, -, -, hr⟩ := @like_of_readBareStatement .loose (.same s) s s r
    (fun _ _ _ => trivial) rfl st (Lockstep.same_refl s) h (Nat.zero_le _)
  exact hr

/-! ## Lines -/

/-- A line that begins with such a character says nothing. -/
def IsSilent (c : Char) : Prop :=
  c = '#' ∨ c = '\n' ∨ c = '\r'

/-- From one line of a document to another, with the statements between them. -/
inductive LinesTo : List Char → List Statement → List Char → Prop
  | nil (s : List Char) : LinesTo s [] s
  | silent {s rest next z : List Char} {c : Char} {sts : List Statement}
      (hs : skipBlanks s = c :: rest) (hc : IsSilent c)
      (hend : readLineEnd (c :: rest) = some next) (h : LinesTo next sts z) : LinesTo s sts z
  | statement {s rest next z : List Char} {c : Char} {st : Statement} {sts : List Statement}
      (hs : skipBlanks s = c :: rest) (hc : ¬ IsSilent c)
      (hst : readStatement (c :: rest) = some (st, next)) (h : LinesTo next sts z) :
      LinesTo s (st :: sts) z

/-- The statements on some lines come before all others. -/
theorem LinesTo.readStatements_eq {sts : List Statement} (h : LinesTo s sts z) :
    readStatements s = (readStatements z).map (sts ++ ·) := by
  induction h with
  | nil s => simp
  | silent hs hc hend _ ih => rw [readStatements_silent hs hc hend, ih]
  | statement hs hc hst _ ih =>
    rw [readStatements_statement hs hc hst, ih, Option.map_map]
    rfl

/-- The statements of a document stand on its lines, and any of them on a line of its own. -/
theorem exists_linesTo {above more : List Statement} (h : readStatements s = some (above ++ more)) :
    ∃ z, LinesTo s above z ∧ readStatements z = some more ∧
      ∀ c rest, skipBlanks z = c :: rest → ¬ IsSilent c := by
  fun_induction readStatements s generalizing above with
  | case1 s hs =>
    obtain ⟨rfl, rfl⟩ := List.append_eq_nil_iff.1 (Option.some.inj h).symm
    exact ⟨s, .nil s, readStatements_end hs, fun c rest heq => by cases hs.symm.trans heq⟩
  | case2 | case4 | case5 => cases h
  | case3 s c rest hs hc next hend ih =>
    obtain ⟨z, hlines, hz⟩ := ih h
    exact ⟨z, .silent hs hc hend hlines, hz⟩
  | case6 s c rest hs hc st next hst sts hsts ih =>
    cases above with
    | nil =>
      have hmore : readStatements s = some more := by
        rw [readStatements_statement hs hc hst, hsts]
        exact h
      refine ⟨s, .nil s, hmore, fun d rest' heq => ?_⟩
      obtain ⟨rfl, -⟩ := List.cons.inj (hs.symm.trans heq)
      exact hc
    | cons st' above =>
      obtain ⟨rfl, rfl⟩ := List.cons.inj (Option.some.inj h)
      obtain ⟨z, hlines, hz⟩ := ih hsts
      exact ⟨z, .statement hs hc hst hlines, hz⟩

/-- What is left behind the end of a line begins behind a line feed. -/
theorem newline_of_readLineEnd (h : readLineEnd s = some r) (hr : r ≠ []) :
    ∃ x, s = x ++ '\n' :: r := by
  obtain ⟨x, hx⟩ := lineRest_suffix s
  rw [readLineEnd_eq] at h
  split at h
  · cases h
    exact absurd rfl hr
  unfold newline? at h
  split at h
  · rename_i heq
    cases h
    exact ⟨x, by rw [← heq, hx]⟩
  · rename_i heq
    cases h
    exact ⟨x ++ ['\r'], by rw [List.append_assoc, List.singleton_append, ← heq, hx]⟩
  · cases h

/-- So does what is left behind a statement. -/
theorem newline_of_readStatement {st : Statement} (h : readStatement s = some (st, r))
    (hr : r ≠ []) : ∃ x, s = x ++ '\n' :: r := by
  obtain ⟨rest, hbare, hend⟩ := readStatement_eq_some_iff.1 h
  obtain ⟨x, rfl⟩ := newline_of_readLineEnd hend hr
  obtain ⟨y, rfl⟩ := suffix_of_readBareStatement hbare
  exact ⟨y ++ x, by simp⟩

/-- What follows a line is a line feed and more lines, unless there is nothing before it. -/
theorem LinesTo.newline {sts : List Statement} (h : LinesTo s sts z) (hz : z ≠ []) :
    sts = [] ∧ s = z ∨ ∃ x, s = x ++ '\n' :: z := by
  have hline : ∀ {c rest next} {s z : List Char} {sts : List Statement}, skipBlanks s = c :: rest →
      (next ≠ [] → ∃ x, c :: rest = x ++ '\n' :: next) → z ≠ [] →
      (sts = [] ∧ next = z ∨ ∃ x, next = x ++ '\n' :: z) → ∃ x, s = x ++ '\n' :: z := by
    rintro c rest next s z sts hs hnext hz h
    obtain ⟨y, hy⟩ : skipBlanks s <:+ s := List.dropWhile_suffix _
    have hne : next ≠ [] := by
      rcases h with ⟨-, rfl⟩ | ⟨x, rfl⟩
      · exact hz
      · simp
    obtain ⟨x, hx⟩ := hnext hne
    rw [hs, hx] at hy
    rcases h with ⟨-, rfl⟩ | ⟨x', rfl⟩
    · exact ⟨y ++ x, by rw [← hy]; simp⟩
    · exact ⟨y ++ x ++ '\n' :: x', by rw [← hy]; simp⟩
  induction h with
  | nil => exact .inl ⟨rfl, rfl⟩
  | silent hs _ hend _ ih => exact .inr (hline hs (newline_of_readLineEnd hend) hz (ih hz))
  | statement hs _ hst _ ih => exact .inr (hline hs (newline_of_readStatement hst) hz (ih hz))

theorem LinesTo.length_le {sts : List Statement} (h : LinesTo s sts z) : z.length ≤ s.length := by
  have hblanks := length_skipBlanks_le
  have hend := @length_lt_of_readLineEnd
  have hstatement := @length_lt_of_readStatement
  induction h <;> grind

/-- A line that does not begin behind the border begins alike in both texts. -/
theorem cons_of_skipBlanks {L : Lockstep} (hL : L.border = '\n') {c : Char} {rest : List Char}
    (hs : skipBlanks s = c :: rest) (hst : L.Behind s t) (hgap : L.gap ≤ rest.length + 1) :
    ∃ rest', skipBlanks t = c :: rest' ∧ L.Together (c :: rest) (c :: rest') := by
  have hblanks := length_skipBlanks_le s
  rw [hs, List.length_cons] at hblanks
  have hskip := L.together_skipBlanks hL (hst.resolve_right (by omega))
  rw [hs] at hskip
  obtain ⟨rest', ht, -⟩ := L.cons hskip
  exact ⟨rest', ht, ht ▸ hskip⟩

/-- Lines before the border are read as like lines. -/
theorem LinesTo.like {A : Likeness} {L : Lockstep} (hA : ∀ a b, L.Along a b → A.span a b)
    (hL : L.border = '\n') {sts : List Statement} (h : LinesTo s sts z) (hst : L.Behind s t)
    (hz : L.gap = 0 ∨ z ≠ [] ∧ L.gap ≤ z.length + 1) :
    ∃ sts' z', LinesTo t sts' z' ∧ List.Forall₂ (Statement.Like A L) sts sts' ∧
      L.Behind z z' := by
  induction h generalizing t with
  | nil => exact ⟨[], t, .nil t, .nil, hst⟩
  | silent hs hc hend h ih =>
    have hnext := length_lt_of_readLineEnd hend (by simp)
    have hle := h.length_le
    rw [List.length_cons] at hnext
    obtain ⟨rest', ht, hrest⟩ := cons_of_skipBlanks hL hs hst (by omega)
    have hends := L.rel_readLineEnd hL hrest
    rw [hend] at hends
    obtain ⟨next', hend', hnext'⟩ := hends.exists_of_some
    obtain ⟨sts', z', hlines, hsts, hz'⟩ := ih hnext' hz
    exact ⟨sts', z', .silent ht hc hend' hlines, hsts, hz'⟩
  | statement hs hc hread h ih =>
    have hnext := length_lt_of_readStatement hread
    have hle := h.length_le
    rw [List.length_cons] at hnext
    obtain ⟨rest', ht, hrest⟩ := cons_of_skipBlanks hL hs hst (by omega)
    have hroom := hz.imp_right fun ⟨hne, hgap⟩ =>
      And.intro (List.ne_nil_of_length_pos (Nat.lt_of_lt_of_le (List.length_pos_of_ne_nil hne) hle))
        (Nat.le_trans hgap (Nat.succ_le_succ hle))
    obtain ⟨st', next', hread', hlike, hnext'⟩ := like_of_readStatement hA hL hrest hread hroom
    obtain ⟨sts', z', hlines, hsts, hz'⟩ := ih hnext' hz
    exact ⟨st' :: sts', z', .statement ht hc hread' hlines, .cons hlike hsts, hz'⟩

/-- The same lines are like each other. -/
theorem like_self {A : Likeness} {sts : List Statement}
    (hA : ∀ a b, (Lockstep.same s).Along a b → A.span a b) (h : readStatements s = some sts) :
    List.Forall₂ (Statement.Like A (.same s)) sts sts := by
  obtain ⟨z, hlines, hz, -⟩ := @exists_linesTo s sts [] (by rw [h, List.append_nil])
  obtain ⟨sts', z', hlines', hsts, hzz'⟩ :=
    hlines.like hA rfl (.inl (Lockstep.same_refl s)) (.inl rfl)
  obtain ⟨rfl, -⟩ := hzz'.resolve_right fun h => by cases h.1
  rw [hlines'.readStatements_eq, hz, Option.map_some, List.append_nil] at h
  rwa [Option.some.inj h] at hsts

/-! ## The line of a value -/

theorem not_scalar_of_closeBraces {start : List Char} {as : List Assignment} {v : Scalar}
    {sp : Span} : closeBraces start as s ≠ some (.scalar v sp) := by
  intro h
  obtain ⟨t, -, ht⟩ := Option.map_eq_some_iff.1 h
  cases ht

/-- A value without parts is read by itself: no list or table around it has been opened. -/
theorem readScalar_of_readFrom {stage : Stage} {frames : List Frame} {v : Scalar} {sp : Span}
    (h : readFrom stage frames s = some (.scalar v sp, r)) :
    frames = [] ∧ (stage = .after (.scalar v sp) ∧ s = r ∨
      stage = .value ∧ readScalar s = some (v, r) ∧ sp = ⟨s, r⟩) := by
  have hbraces := @not_scalar_of_closeBraces
  fun_induction readFrom stage frames s with
  | case10 frames c rest hlist hbraces v' rest' hscalar ih =>
    split at h
    · cases h
    · rename_i heq
      rw [heq] at hscalar
      cases hscalar
      grind
  | case9 => split at h <;> simp_all
  | _ => grind [closeList]

/-- A value without parts begins with no blank, bracket or brace. -/
theorem head_of_readScalar {v : Scalar} (h : readScalar s = some (v, r)) :
    ∃ c tail, s = c :: tail ∧ isBlank c = false ∧ c ≠ '[' ∧ c ≠ '\x7b' := by
  cases s with
  | nil => cases h
  | cons c tail =>
    have hne : ∀ d, readScalar (d :: tail) = none → c ≠ d := by
      rintro d hd rfl
      cases hd.symm.trans h
    refine ⟨c, tail, rfl, ?_, hne _ rfl, hne _ rfl⟩
    simp [isBlank, hne ' ' rfl, hne '\t' rfl]

theorem skipBlanks_of_readScalar {v : Scalar} (h : readScalar s = some (v, r)) :
    skipBlanks s = s := by
  obtain ⟨c, tail, rfl, hc, -, -⟩ := head_of_readScalar h
  exact skipBlanks_cons hc tail

/-- A value without parts is a value. -/
theorem readValue_of_readScalar {v : Scalar} (h : readScalar s = some (v, r)) :
    readValue s = some (.scalar v ⟨s, r⟩, r) := by
  obtain ⟨c, tail, rfl, -, hlist, hbraces⟩ := head_of_readScalar h
  rw [readValue, readFrom_scalar hlist hbraces h, readFrom_done]

/-- A key is read alike, whatever value it is given. -/
theorem readTarget_replaced {key : Key} {s₁ s₂ : List Char}
    (h : readTarget s = some (([], key), s₁)) (hs₂ : skipBlanks s₂ = s₂) :
    ∃ w key', w ≠ [] ∧ s = w ++ s₁ ∧ key.name = key'.name ∧
      readTarget (w ++ s₂) = some (([], key'), s₂) := by
  unfold readTarget readPath at h
  split at h
  · rename_i p rest hpath
    cases h
    obtain ⟨top, rfl⟩ := suffix_of_readParts hpath
    have hblanks : rest = rest.takeWhile isBlank ++ skipBlanks rest :=
      List.takeWhile_append_dropWhile.symm
    have hskip : skipBlanks (rest.takeWhile isBlank ++ s₂) = s₂ := by
      rw [skipBlanks, List.dropWhile_append_of_pos fun c hc => List.all_eq_true.1
        List.all_takeWhile c hc]
      exact hs₂
    -- the key ends with the sign of equality, up to which the texts are the same
    obtain ⟨⟨path, key'⟩, r', hpath', ⟨hkeys, hkey⟩, hr'⟩ := @like_of_readParts .loose
      (.shared top '=' rest (rest.takeWhile isBlank ++ s₂)) _ _ _ (fun _ _ _ => trivial) _ _
      ⟨[], top, rfl, rfl, rfl⟩ hpath (Nat.le_refl _)
    obtain rfl := Lockstep.eq_of_shared hr'
    obtain rfl := List.forall₂_nil_left_iff.1 hkeys
    refine ⟨top ++ '=' :: rest.takeWhile isBlank, key', by simp, ?_, hkey.name, ?_⟩
    · rw [List.append_assoc, List.cons_append, ← hblanks]
    · rw [List.append_assoc, List.cons_append, readTarget, readPath, hpath']
      simp only [hskip]
  · cases h

theorem isHeader_of_readHeader {st : Statement} (h : readHeader s = some (st, r)) :
    st.IsHeader := by
  unfold readHeader at h
  split at h
  · split at h <;> cases h
    trivial
  · split at h <;> cases h
    trivial
  · cases h

/-- A statement that gives a key of one part a value without parts gives it another one if another
one is written. -/
theorem readStatement_replaced {key : Key} {v₁ v₂ : Scalar} {s₁ s₂ post stop : List Char}
    (h : readStatement s = some (.assignment ⟨[], key, .scalar v₁ ⟨s₁, post⟩⟩ stop, r))
    (hwritten : readScalar s₂ = some (v₂, post)) :
    readLineEnd post = some r ∧ stop = post ∧ ∃ w key', w ≠ [] ∧ s = w ++ s₁ ∧
      key.name = key'.name ∧
      readStatement (w ++ s₂) = some (.assignment ⟨[], key', .scalar v₂ ⟨s₂, post⟩⟩ post, r) := by
  obtain ⟨rest, hbare, hend⟩ := readStatement_eq_some_iff.1 h
  unfold readBareStatement at hbare
  split at hbare
  · exact (isHeader_of_readHeader hbare).elim
  rename_i hhead
  unfold readAssignment at hbare
  split at hbare
  · cases hbare
  rename_i htarget
  split at hbare
  · cases hbare
  rename_i hvalue
  cases hbare
  obtain ⟨-, hstage⟩ := readScalar_of_readFrom hvalue
  obtain ⟨-, hread, hspan⟩ := hstage.resolve_left (by simp)
  cases hspan
  obtain ⟨w, key', hw, rfl, hname, htarget'⟩ :=
    readTarget_replaced htarget (skipBlanks_of_readScalar hwritten)
  refine ⟨hend, rfl, w, key', hw, rfl, hname, readStatement_eq_some_iff.2 ⟨post, ?_, hend⟩⟩
  have hhead' : (w ++ s₂).head? ≠ some '[' := by
    rwa [List.head?_append_of_ne_nil w hw] at hhead ⊢
  rw [readBareStatement, if_neg hhead', readAssignment, htarget']
  simp only [readValue_of_readScalar hwritten]

/-- A line that says something is read as its first statement. -/
theorem exists_of_readStatements_cons {st : Statement} {sts : List Statement}
    (h : readStatements s = some (st :: sts))
    (hs : ∀ c rest, skipBlanks s = c :: rest → ¬ IsSilent c) :
    ∃ c rest next, skipBlanks s = c :: rest ∧ ¬ IsSilent c ∧
      readStatement (c :: rest) = some (st, next) ∧ readStatements next = some sts := by
  obtain ⟨z, hlines, hz, -⟩ := @exists_linesTo s [st] sts h
  cases hlines with
  | silent hskip hc => exact absurd hc (hs _ _ hskip)
  | statement hskip hc hread hnil =>
    refine ⟨_, _, _, hskip, hc, hread, ?_⟩
    rw [hnil.readStatements_eq, hz]
    rfl

/-- What stands behind the first character that is no blank does not matter to the blanks. -/
theorem skipBlanks_replaced {w : List Char} (h : skipBlanks s = w ++ t) (hw : w ≠ []) :
    ∃ b, s = b ++ w ++ t ∧ ∀ u, skipBlanks (b ++ w ++ u) = w ++ u := by
  obtain ⟨c, w, rfl⟩ := List.exists_cons_of_ne_nil hw
  have hc : isBlank c = false := by
    have hhead := List.head?_dropWhile_not isBlank s
    rw [skipBlanks] at h
    simpa [h] using hhead
  refine ⟨s.takeWhile isBlank, ?_, fun u => ?_⟩
  · rw [List.append_assoc, ← h]
    exact List.takeWhile_append_dropWhile.symm
  · rw [List.append_assoc, skipBlanks, List.dropWhile_append_of_pos fun c hc =>
      List.all_eq_true.1 List.all_takeWhile c hc]
    exact skipBlanks_cons hc _

/-- So does the first of several statements. -/
theorem readStatements_replaced {key : Key} {v₁ v₂ : Scalar} {s₁ s₂ post stop : List Char}
    {below : List Statement}
    (h : readStatements z =
      some (.assignment ⟨[], key, .scalar v₁ ⟨s₁, post⟩⟩ stop :: below))
    (hz : ∀ c rest, skipBlanks z = c :: rest → ¬ IsSilent c)
    (hwritten : readScalar s₂ = some (v₂, post)) :
    ∃ w key' q, w ≠ [] ∧ z = w ++ s₁ ∧ key.name = key'.name ∧ stop = post ∧
      readLineEnd post = some q ∧ readStatements q = some below ∧
      readStatements (w ++ s₂) =
        some (.assignment ⟨[], key', .scalar v₂ ⟨s₂, post⟩⟩ post :: below) := by
  obtain ⟨c, rest, q, hskip, hc, hread, hbelow⟩ := exists_of_readStatements_cons h hz
  obtain ⟨hend, rfl, w, key', hw, hrest, hname, hread'⟩ := readStatement_replaced hread hwritten
  rw [hrest] at hskip
  obtain ⟨b, rfl, hskip'⟩ := skipBlanks_replaced hskip hw
  obtain ⟨d, w, rfl⟩ := List.exists_cons_of_ne_nil hw
  obtain ⟨rfl, -⟩ := List.cons.inj hrest
  refine ⟨b ++ c :: w, key', q, by simp, rfl, hname, rfl, hend, hbelow, ?_⟩
  rw [readStatements_statement (hskip' s₂) hc hread', hbelow]
  rfl

/-! ## Documents -/

/-- A byte order mark is passed over whatever follows. -/
theorem skipByteOrderMark_append {pre : List Char} (h : pre ≠ []) :
    ∃ mark top, pre = mark ++ top ∧ ∀ s, skipByteOrderMark (pre ++ s) = top ++ s := by
  obtain ⟨c, pre, rfl⟩ := List.exists_cons_of_ne_nil h
  by_cases hc : c = '\uFEFF'
  · subst hc
    exact ⟨['\uFEFF'], pre, rfl, fun s => rfl⟩
  · refine ⟨[], c :: pre, rfl, fun s => ?_⟩
    rw [List.cons_append, skipByteOrderMark]
    exact fun rest heq => hc (List.cons.inj heq).1

theorem length_skipByteOrderMark_le (s : List Char) : (skipByteOrderMark s).length ≤ s.length := by
  unfold skipByteOrderMark
  split
  · exact Nat.le_succ _
  · exact Nat.le_refl _

section

variable {A : Likeness} {L : Lockstep} {b b' : Building} {st st' : Statement}

/-- Where no header has come, there is no table whose stretch could grow. -/
theorem Building.Like.step_of_not_isHeader (h : b.Like A (fun _ _ => False) b')
    (hst : ¬ st.IsHeader) (hlike : st.Like A L st') :
    Option.Rel (Building.Like A fun _ _ => False) (b.step st) (b'.step st') := by
  cases hlike with
  | header => exact absurd trivial hst
  | assignment ha => exact h.step_assignment False.elim ha

/-- The lines above the line of a value are read as like lines. -/
theorem like_above {top w s₁ s₂ : List Char} {sts : List Statement}
    (h : LinesTo (top ++ s₁) sts (w ++ s₁)) (hw : w ≠ []) (hheader : ∀ st ∈ sts, ¬ st.IsHeader)
    (hA : ∀ x, top = x ++ '\n' :: w →
      ∀ a b, (Lockstep.shared x '\n' (w ++ s₁) (w ++ s₂)).Along a b → A.span a b) :
    ∃ sts', LinesTo (top ++ s₂) sts' (w ++ s₂) ∧
      Option.Rel (Building.Like A fun _ _ => False) (sts.foldlM Building.step .start)
        (sts'.foldlM Building.step .start) := by
  rcases h.newline (by simp [hw]) with ⟨rfl, heq⟩ | ⟨x, heq⟩
  · obtain rfl := List.append_cancel_right heq
    exact ⟨[], .nil _, .some Building.like_start⟩
  rw [← List.cons_append, ← List.append_assoc] at heq
  obtain rfl := List.append_cancel_right heq
  have hstart : (Lockstep.shared x '\n' (w ++ s₁) (w ++ s₂)).Together
      (x ++ '\n' :: w ++ s₁) (x ++ '\n' :: w ++ s₂) := ⟨[], x, rfl, by simp, by simp⟩
  obtain ⟨sts', z, hlines, hsts, hbehind⟩ :=
    h.like (hA x rfl) rfl (.inl hstart) (.inr ⟨by simp [hw], Nat.le_refl _⟩)
  obtain ⟨-, rfl⟩ := hbehind.resolve_left fun ⟨p, u, _, hs, _⟩ => by
    have hlength := congrArg List.length hs
    simp only [List.length_append, List.length_cons] at hlength
    omega
  exact ⟨sts', hlines, .foldlM ((List.forall₂_and_left _ _).2 ⟨hheader, hsts⟩)
    (fun hb hst => hb.step_of_not_isHeader hst.1 hst.2) Building.like_start⟩

/-- The lines below are the same, and what is built with them is alike. -/
theorem like_below {sts : List Statement} (h : readStatements s = some sts)
    (hA : s ≠ [] → ∀ a b, (Lockstep.same s).Along a b → A.header a b)
    (hb : b.Like A (fun _ _ => False) b') :
    Option.Rel (fun b b' => Option.Rel (Table.Like A A.span) b.finish b'.finish)
      (sts.foldlM Building.step b) (sts.foldlM Building.step b') := by
  by_cases hs : s = []
  · subst hs
    obtain rfl := Option.some.inj (h.symm.trans (readStatements_end rfl))
    exact .some (hb.finish fun _ _ => False.elim)
  · have hsts := like_self (fun a b hab => A.span_of_header (hA hs a b hab)) h
    have hfold := Option.Rel.foldlM hsts (fun hb hst => hb.step (hA hs) hst)
      (hb.imp fun _ _ => False.elim)
    exact hfold.imp fun b b' hb => hb.finish (hA hs)

/-- Of a document that gives a key of one part a value without parts, that value may be replaced.
The document is alike if stretches above and below the line of the value correspond. -/
theorem document_replaced {pre post s₁ s₂ : List Char} {t : Table} {key : Key} {v₁ v₂ : Scalar}
    (h : document (pre ++ s₁) = some t) (hmem : (key, .scalar v₁ ⟨s₁, post⟩) ∈ t.entries)
    (hwritten : readScalar s₂ = some (v₂, post)) (hfree : A.free key.name)
    (habove : ∀ mark x w, pre = mark ++ (x ++ '\n' :: w) →
      ∀ a b, (Lockstep.shared x '\n' (w ++ s₁) (w ++ s₂)).Along a b → A.span a b)
    (hbelow : ∀ y q, post = y ++ '\n' :: q → ∀ a b, (Lockstep.same q).Along a b → A.header a b) :
    ∃ t', document (pre ++ s₂) = some t' ∧ Table.Like A A.span t t' := by
  obtain ⟨sts, hread, hbuild⟩ := Option.bind_eq_some_iff.1 h
  obtain ⟨above, stop, below, rfl, hheader⟩ := exists_assignment hbuild hmem
  obtain ⟨z, hlines, hz, hsilent⟩ := exists_linesTo hread
  obtain ⟨w, key', q, hw, rfl, hname, rfl, hend, hq, hz'⟩ :=
    readStatements_replaced hz hsilent hwritten
  have hpre : pre ≠ [] := by
    rintro rfl
    have hle := Nat.le_trans hlines.length_le (length_skipByteOrderMark_le _)
    rw [List.nil_append, List.length_append] at hle
    exact hw (List.length_eq_zero_iff.1 (by omega))
  obtain ⟨mark, top, rfl, hmark⟩ := skipByteOrderMark_append hpre
  rw [hmark] at hlines
  obtain ⟨above', hlines', hfold⟩ :=
    like_above hlines hw hheader fun x hx => habove mark x w (by rw [hx])
  have hdocument : document (mark ++ top ++ s₂) = Table.ofStatements
      (above' ++ .assignment ⟨[], key', .scalar v₂ ⟨s₂, stop⟩⟩ stop :: below) := by
    rw [document, hmark, hlines'.readStatements_eq, hz']
    rfl
  have hassignment : Assignment.Like A ⟨[], key, .scalar v₁ ⟨s₁, stop⟩⟩
      ⟨[], key', .scalar v₂ ⟨s₂, stop⟩⟩ := ⟨.nil, .free v₁ v₂ ⟨hname, .inl hfree⟩ hfree⟩
  have hbuilt : Option.Rel (Table.Like A A.span)
      (Table.ofStatements (above ++ .assignment ⟨[], key, .scalar v₁ ⟨s₁, stop⟩⟩ stop :: below))
      (Table.ofStatements
        (above' ++ .assignment ⟨[], key', .scalar v₂ ⟨s₂, stop⟩⟩ stop :: below)) := by
    rw [Table.ofStatements, Table.ofStatements, List.foldlM_append, List.foldlM_append]
    simp only [List.foldlM_cons, bind_assoc]
    refine hfold.bind fun b b' hb => ?_
    refine (hb.step_assignment False.elim hassignment).bind fun b b' hb => ?_
    have hA := fun hne => (newline_of_readLineEnd hend hne).elim fun y hy => hbelow y q hy
    exact (like_below hq hA hb).bind fun _ _ hfinish => hfinish
  rw [hbuild] at hbuilt
  obtain ⟨t', ht', hlike⟩ := hbuilt.exists_of_some
  exact ⟨t', hdocument.trans ht', hlike⟩

end

end BrokerAgent.Toml
