import BrokerAgent.Proofs.Toml.Likeness
import BrokerAgent.Proofs.Toml.Values

/-!
# Like texts are read as like statements

What stands in the part that two texts have in common is read alike: keys, values with all their
parts, and statements with the ends of their lines (`like_of_readStatement`).
-/

namespace BrokerAgent.Toml

/-! ## Steps of the loop that reads tables in braces -/

section Steps

variable {s rest next start : List Char} {frames : List Frame} {node : Node}
  {assignments : List Assignment} {path path' : List Key} {key key' : Key}

/-- A value without parts is read whole. -/
theorem readFrom_scalar {c : Char} {v : Scalar} (hlist : c ≠ '[') (hbraces : c ≠ '\x7b')
    (h : readScalar (c :: s) = some (v, rest)) :
    readFrom .value frames (c :: s) =
      readFrom (.after (.scalar v ⟨c :: s, rest⟩)) frames rest := by
  conv =>
    lhs
    rw [readFrom, if_neg hlist, if_neg hbraces]
  split
  · simp_all
  · simp_all

/-- A comma may stand before the bracket that ends a list. -/
theorem readFrom_comma_closed {items : List Node} (hs : skipLines false s = ',' :: rest)
    (hrest : skipLines false rest = ']' :: next) :
    readFrom (.after node) (.list start items :: frames) s =
      readFrom (.after (closeList start (node :: items) next)) frames next := by
  conv =>
    lhs
    rw [readFrom]
  split
  · split <;> simp_all
  · simp_all
  · simp_all

/-- A brace begins a table. -/
theorem readFrom_opened_braces (hroom : frames.length < maxDepth) (hs : skipBlanks s = next)
    (hnext : next.head? ≠ some '\x7d') (htarget : readTarget next = some ((path, key), rest)) :
    readFrom .value frames ('\x7b' :: s) =
      readFrom .value (.braces ('\x7b' :: s) [] path key :: frames) rest := by
  conv =>
    lhs
    rw [readFrom, if_neg (by decide), if_pos rfl, if_pos hroom]
  split
  · rename_i heq
    rw [← hs, heq] at hnext
    exact absurd rfl hnext
  · split <;> simp_all

/-- A table in braces may be empty. -/
theorem readFrom_empty_braces (hroom : frames.length < maxDepth)
    (hs : skipBlanks s = '\x7d' :: rest) :
    readFrom .value frames ('\x7b' :: s) =
      readFrom (.after (.table (.empty .braces (some ⟨'\x7b' :: s, rest⟩)))) frames rest := by
  conv =>
    lhs
    rw [readFrom, if_neg (by decide), if_pos rfl, if_pos hroom]
  split
  · simp_all
  · simp_all

/-- A comma leads to the value of the next key. -/
theorem readFrom_comma_braces (hs : skipBlanks s = ',' :: rest)
    (htarget : readTarget rest = some ((path', key'), next)) :
    readFrom (.after node) (.braces start assignments path key :: frames) s =
      readFrom .value (.braces start (⟨path, key, node⟩ :: assignments) path' key' :: frames)
        next := by
  conv =>
    lhs
    rw [readFrom]
  split
  · split <;> simp_all
  · simp_all
  · simp_all

/-- A brace ends the table, if its assignments go together. -/
theorem readFrom_closed_braces {table : Node} (hs : skipBlanks s = '\x7d' :: rest)
    (hclose : closeBraces start (⟨path, key, node⟩ :: assignments) rest = some table) :
    readFrom (.after node) (.braces start assignments path key :: frames) s =
      readFrom (.after table) frames rest := by
  conv =>
    lhs
    rw [readFrom]
  split
  · simp_all
  · split <;> simp_all
  · simp_all

end Steps

variable {A : Likeness} {L : Lockstep} {s t r : List Char}

/-- Reads a statement without the end of its line. -/
def readBareStatement (s : List Char) : Option (Statement × List Char) :=
  if s.head? = some '[' then readHeader s else readAssignment s

/-- A statement is read with the end of its line. -/
theorem readStatement_eq_some_iff {st : Statement} :
    readStatement s = some (st, r) ↔
      ∃ rest, readBareStatement s = some (st, rest) ∧ readLineEnd rest = some r := by
  unfold readStatement readBareStatement
  constructor
  · intro h
    split at h
    · cases h
    · rename_i st rest hbare
      split at h
      · cases h
      · rename_i hend
        cases h
        exact ⟨rest, hbare, hend⟩
  · rintro ⟨rest, hbare, hend⟩
    simp only [hbare, hend]

/-- Lists and tables that have been opened at points that belong together, with like contents. -/
inductive Frame.Like (A : Likeness) (L : Lockstep) : Frame → Frame → Prop
  | list {start start' : List Char} {items items' : List Node} (h : L.Together start start')
      (hitems : List.Forall₂ (Node.Like A) items items') :
      Frame.Like A L (.list start items) (.list start' items')
  | braces {start start' : List Char} {as as' : List Assignment} {path path' : List Key}
      {key key' : Key} (h : L.Together start start') (has : List.Forall₂ (Assignment.Like A) as as')
      (hpath : List.Forall₂ (Key.Like A) path path') (hkey : key.Like A key') :
      Frame.Like A L (.braces start as path key) (.braces start' as' path' key')

/-- A value comes next, or like values have been read. -/
inductive Stage.Like (A : Likeness) : Stage → Stage → Prop
  | value : Stage.Like A .value .value
  | after {n n' : Node} (h : Node.Like A n n') : Stage.Like A (.after n) (.after n')

/-- Keys that are alike, each with the path to it. -/
structure TargetLike (A : Likeness) (p q : List Key × Key) : Prop where
  path : List.Forall₂ (Key.Like A) p.1 q.1
  key : p.2.Like A q.2

/-- A character that does not follow in the one text is not the next one of the other. -/
theorem head?_ne {c : Char} (h : L.Together s t) (hs : ∀ rest, s = c :: rest → False) :
    t.head? ≠ some c := by
  intro hhead
  obtain ⟨rest, rfl⟩ := List.head?_eq_some_iff.1 hhead
  exact L.no_cons h hs rest rfl

variable (hA : ∀ a b, L.Along a b → A.span a b)
include hA

/-! ## Keys -/

/-- A part of a key before the border is read as a like part. -/
theorem like_of_readKey {key : Key} (h : L.Together s t) (hs : readKey s = some (key, r))
    (hr : L.gap ≤ r.length) :
    ∃ key' r', readKey t = some (key', r') ∧ key.Like A key' ∧ L.Together r r' := by
  have hlike : ∀ {name r r'}, L.Together r r' → Key.Like A ⟨name, ⟨s, r⟩⟩ ⟨name, ⟨t, r'⟩⟩ :=
    fun hr => ⟨rfl, .inr (hA _ _ ⟨h, hr⟩)⟩
  rcases L.uncons h with ⟨rfl, rfl⟩ | ⟨c, s, t, rfl, rfl, htail⟩
  · cases hs
  rw [readKey] at hs ⊢
  split at hs
  · obtain ⟨⟨name, _⟩, hread, heq⟩ := Option.map_eq_some_iff.1 hs
    cases heq
    have hlt := length_lt_of_readBasic hread
    obtain ⟨r', hread', hr'⟩ := L.together_of_readBasic (htail.resolve_right (by omega)) hread hr
    exact ⟨_, r', by rw [if_pos ‹_›, hread']; rfl, hlike hr', hr'⟩
  split at hs
  · obtain ⟨⟨name, _⟩, hread, heq⟩ := Option.map_eq_some_iff.1 hs
    cases heq
    have hlt := length_lt_of_readLiteral hread
    obtain ⟨r', hread', hr'⟩ := L.together_of_readLiteral (htail.resolve_right (by omega)) hread hr
    exact ⟨_, r', by rw [if_neg ‹_›, if_pos ‹_›, hread']; rfl, hlike hr', hr'⟩
  split at hs
  · cases hs
    obtain ⟨htake, hdrop⟩ := L.together_dropWhile_of_le h hr
    exact ⟨_, _, by rw [if_neg ‹_›, if_neg ‹_›, if_pos ‹_›, ← htake], hlike hdrop, hdrop⟩
  · cases hs

/-- So are all parts of a key. -/
theorem like_of_readParts {room : Nat} {p : List Key × Key} (h : L.Together s t)
    (hs : readParts room s = some (p, r)) (hr : L.gap ≤ r.length) :
    ∃ p' r', readParts room t = some (p', r') ∧ TargetLike A p p' ∧ L.Together r r' := by
  have hblanks := length_skipBlanks_le
  have hkey := @length_lt_of_readKey
  have hparts := @length_lt_of_readParts
  fun_induction readParts room s generalizing t p with
  | case1 | case2 | case3 => cases hs
  | case4 room s key rest hread rest₁ hpoint path last rest₂ hmore ih =>
    cases hs
    have hlt := hparts hmore
    have hle := hblanks rest
    have hlt' := hkey hread
    rw [hpoint, List.length_cons] at hle
    obtain ⟨key', rest', hread', hlike, hrest⟩ :=
      like_of_readKey hA (L.together_skipBlanks_of_le h (by omega)) hread (by omega)
    obtain ⟨rest₁', hpoint', hrest₁⟩ := L.together_of_skipBlanks hrest hpoint (by omega)
    obtain ⟨p', r', hmore', hp, hr'⟩ := ih hrest₁ hmore
    exact ⟨(key' :: p'.1, p'.2), r', by simp [readParts, hread', hpoint', hmore'],
      ⟨.cons hlike hp.path, hp.key⟩, hr'⟩
  | case5 room s key rest hread hpoint =>
    cases hs
    have hle := hblanks rest
    have hlt' := hkey hread
    obtain ⟨key', rest', hread', hlike, hrest⟩ :=
      like_of_readKey hA (L.together_skipBlanks_of_le h (by omega)) hread (by omega)
    have hskip := L.together_skipBlanks_of_le hrest hr
    have hpoint' := L.no_cons hskip hpoint
    exact ⟨([], key'), skipBlanks rest', by simp [readParts, hread'], ⟨.nil, hlike⟩, hskip⟩

/-- So is the key of an assignment, with the sign behind it. -/
theorem like_of_readTarget {p : List Key × Key} (h : L.Together s t)
    (hs : readTarget s = some (p, r)) (hr : L.gap ≤ r.length) :
    ∃ p' r', readTarget t = some (p', r') ∧ TargetLike A p p' ∧ L.Together r r' := by
  have hblanks := length_skipBlanks_le
  unfold readTarget readPath at hs
  split at hs
  · rename_i p rest hpath
    cases hs
    have hle := hblanks rest
    obtain ⟨p', r', hpath', hp, hrest⟩ := like_of_readParts hA h hpath (by simp; omega)
    obtain ⟨rest', rfl, hrest'⟩ := L.together_of_cons hrest (by omega)
    have hskip := L.together_skipBlanks_of_le hrest' hr
    exact ⟨p', skipBlanks rest', by simp [readTarget, readPath, hpath'], hp, hskip⟩
  · cases hs

/-! ## Values -/

theorem like_closeList {start start' : List Char} {items items' : List Node}
    (h : L.Along ⟨start, s⟩ ⟨start', t⟩) (hitems : List.Forall₂ (Node.Like A) items items') :
    Node.Like A (closeList start items s) (closeList start' items' t) :=
  .list (List.rel_reverse hitems) (hA _ _ h)

theorem like_emptyBraces {start start' : List Char} (h : L.Along ⟨start, s⟩ ⟨start', t⟩) :
    (Table.empty .braces (some ⟨start, s⟩)).Like A A.span (.empty .braces (some ⟨start', t⟩)) :=
  Table.like_empty _ (.some (hA _ _ h))

/-- Like assignments in braces make like tables. -/
theorem like_closeBraces {start start' : List Char} {as as' : List Assignment} {node : Node}
    (h : L.Along ⟨start, s⟩ ⟨start', t⟩) (has : List.Forall₂ (Assignment.Like A) as as')
    (hclose : closeBraces start as s = some node) :
    ∃ node', closeBraces start' as' t = some node' ∧ Node.Like A node node' := by
  have hall := ((like_emptyBraces hA h).assignAll (List.rel_reverse has)).map
    fun a b hab => Node.Like.table hab
  rw [closeBraces] at hclose
  rw [hclose] at hall
  exact hall.exists_of_some

/-- A value before the border is read as a like value. -/
theorem like_of_readFrom (hL : L.border = '\n') {stage stage' : Stage}
    {frames frames' : List Frame} {node : Node}
    (hstage : stage.Like A stage') (hframes : List.Forall₂ (Frame.Like A L) frames frames')
    (h : L.Together s t) (hs : readFrom stage frames s = some (node, r)) (hr : L.gap ≤ r.length) :
    ∃ node' r', readFrom stage' frames' t = some (node', r') ∧ Node.Like A node node' ∧
      L.Together r r' := by
  have hle := @length_le_of_readFrom
  have hlines := length_skipLines_le false
  have hblanks := length_skipBlanks_le
  have hroom := hframes.length_eq
  fun_induction readFrom stage frames s generalizing stage' frames' t with
  | case1 | case4 | case6 | case8 | case15 | case16 | case18 | case20 => cases hs
  | case9 => split at hs <;> simp_all
  | case2 frames rest hopen rest' hclose ih =>
    cases hstage
    have hend := Nat.le_trans hr (hle hs)
    have hlt := hclose ▸ hlines rest
    obtain ⟨t, rfl, ht⟩ := L.together_of_cons h (by grind)
    obtain ⟨t', hclose', ht'⟩ := L.together_of_skipLines hL ht hclose hend
    rw [readFrom_empty (hroom ▸ hopen) hclose']
    exact ih (.after (like_closeList hA ⟨h, ht'⟩ .nil)) hframes ht' hs hroom
  | case3 frames rest hopen hnot ih =>
    cases hstage
    have hend := Nat.le_trans hr (hle hs)
    obtain ⟨t, rfl, ht⟩ := L.together_of_cons h (Nat.le_trans hend (hlines rest))
    have hskip : L.Together (skipLines false rest) (skipLines false t) :=
      L.together_skipLines hL ht hend
    rw [readFrom_opened (hroom ▸ hopen) rfl (head?_ne hskip hnot)]
    exact ih .value (.cons (.list h .nil) hframes) hskip hs (by simpa using hroom)
  | case5 frames rest hopen rest' hclose _ ih =>
    cases hstage
    have hend := Nat.le_trans hr (hle hs)
    have hlt := hclose ▸ hblanks rest
    obtain ⟨t, rfl, ht⟩ := L.together_of_cons h (by grind)
    obtain ⟨t', hclose', ht'⟩ := L.together_of_skipBlanks ht hclose hend
    rw [readFrom_empty_braces (hroom ▸ hopen) hclose']
    exact ih (.after (.table (like_emptyBraces hA ⟨h, ht'⟩))) hframes ht' hs hroom
  | case7 frames rest hopen path key rest'' _ hnot htarget ih =>
    cases hstage
    have hend := Nat.le_trans hr (hle hs)
    have hlt := length_lt_of_readTarget htarget
    have hlt' := hblanks rest
    obtain ⟨t, rfl, ht⟩ := L.together_of_cons h (by omega)
    have hskip := L.together_skipBlanks_of_le ht (by omega)
    obtain ⟨⟨path', key'⟩, t', htarget', hp, ht'⟩ := like_of_readTarget hA hskip htarget hend
    rw [readFrom_opened_braces (hroom ▸ hopen) rfl (head?_ne hskip hnot) htarget']
    exact ih .value (.cons (.braces h .nil hp.path hp.key) hframes) ht' hs (by simpa using hroom)
  | case10 frames c rest hlist hbraces v rest' hscalar ih =>
    cases hstage
    split at hs
    · cases hs
    · rename_i value rest₁ hscalar₁
      obtain ⟨rfl, rfl⟩ := Prod.mk.inj (Option.some.inj (hscalar₁.symm.trans hscalar))
      have hend := Nat.le_trans hr (hle hs)
      have hlt := length_lt_of_readScalar hscalar
      obtain ⟨t', hscalar', ht'⟩ := L.together_of_readScalar hL h hscalar hend
      obtain ⟨t, rfl, -⟩ := L.together_of_cons h (by grind)
      rw [readFrom_scalar hlist hbraces hscalar']
      exact ih (.after (.scalar _ (hA _ _ ⟨h, ht'⟩))) hframes ht' hs hroom
  | case11 s node =>
    obtain _ | hnode := hstage
    cases hframes
    cases hs
    rw [readFrom_done]
    exact ⟨_, _, rfl, hnode, h⟩
  | case12 s node start items outer rest hcomma rest' hclose ih =>
    obtain _ | hnode := hstage
    obtain _ | ⟨⟨hstart, hitems⟩ | _, hframes⟩ := hframes
    have hend := Nat.le_trans hr (hle hs)
    have hlt := hclose ▸ hlines rest
    obtain ⟨t', hcomma', ht'⟩ := L.together_of_skipLines hL h hcomma (by grind)
    obtain ⟨t'', hclose', ht''⟩ := L.together_of_skipLines hL ht' hclose hend
    rw [readFrom_comma_closed hcomma' hclose']
    exact ih (.after (like_closeList hA ⟨hstart, ht''⟩ (.cons hnode hitems))) hframes ht'' hs
      hframes.length_eq
  | case13 s node start items outer rest hcomma hnot ih =>
    obtain _ | hnode := hstage
    obtain _ | ⟨⟨hstart, hitems⟩ | _, hframes⟩ := hframes
    have hend := Nat.le_trans hr (hle hs)
    obtain ⟨t', hcomma', ht'⟩ :=
      L.together_of_skipLines hL h hcomma (Nat.le_trans hend (hlines rest))
    have hskip : L.Together (skipLines false rest) (skipLines false t') :=
      L.together_skipLines hL ht' hend
    rw [readFrom_comma hcomma' rfl (head?_ne hskip hnot)]
    exact ih .value (.cons (.list hstart (.cons hnode hitems)) hframes) hskip hs hroom
  | case14 s node start items outer rest hclose ih =>
    obtain _ | hnode := hstage
    obtain _ | ⟨⟨hstart, hitems⟩ | _, hframes⟩ := hframes
    have hend := Nat.le_trans hr (hle hs)
    obtain ⟨t', hclose', ht'⟩ := L.together_of_skipLines hL h hclose hend
    rw [readFrom_closed hclose']
    exact ih (.after (like_closeList hA ⟨hstart, ht'⟩ (.cons hnode hitems))) hframes ht' hs
      hframes.length_eq
  | case17 s node start as path key outer rest hcomma path' key' rest' htarget ih =>
    obtain _ | hnode := hstage
    obtain _ | ⟨_ | ⟨hstart, has, hpath, hkey⟩, hframes⟩ := hframes
    have hend := Nat.le_trans hr (hle hs)
    have hlt := length_lt_of_readTarget htarget
    obtain ⟨t', hcomma', ht'⟩ := L.together_of_skipBlanks h hcomma (by omega)
    obtain ⟨⟨path'', key''⟩, t'', htarget', hp, ht''⟩ := like_of_readTarget hA ht' htarget hend
    rw [readFrom_comma_braces hcomma' htarget']
    have has' := List.Forall₂.cons (Assignment.Like.of hpath hkey hnode) has
    exact ih .value (.cons (.braces hstart has' hp.path hp.key) hframes) ht'' hs hroom
  | case19 s node start as path key outer rest hclose table htable ih =>
    obtain _ | hnode := hstage
    obtain _ | ⟨_ | ⟨hstart, has, hpath, hkey⟩, hframes⟩ := hframes
    have hend := Nat.le_trans hr (hle hs)
    obtain ⟨t', hclose', ht'⟩ := L.together_of_skipBlanks h hclose hend
    have has' := List.Forall₂.cons (Assignment.Like.of hpath hkey hnode) has
    obtain ⟨table', htable', hlike⟩ := like_closeBraces hA ⟨hstart, ht'⟩ has' htable
    rw [readFrom_closed_braces hclose' htable']
    exact ih (.after hlike) hframes ht' hs hframes.length_eq

/-! ## Statements -/

/-- A header before the border is read as a like header. -/
theorem like_of_readHeader {st : Statement} (h : L.Together s t)
    (hs : readHeader s = some (st, r)) (hr : L.gap ≤ r.length) :
    ∃ st' r', readHeader t = some (st', r') ∧ st.Like A L st' ∧ L.Together r r' := by
  unfold readHeader at hs
  split at hs
  · rename_i rest
    split at hs
    · rename_i path key rest' hpath
      cases hs
      have hlt := length_lt_of_readParts hpath
      simp only [List.length_cons] at hlt
      obtain ⟨t, rfl, ht₁⟩ := L.together_of_cons h (by rw [List.length_cons]; omega)
      obtain ⟨t, rfl, ht₂⟩ := L.together_of_cons ht₁ (by omega)
      obtain ⟨⟨path', key'⟩, r₁, hpath', hp, hr₁⟩ :=
        like_of_readParts hA ht₂ hpath (by simp; omega)
      obtain ⟨r₂, rfl, hr₂⟩ := L.together_of_cons hr₁ (by simp; omega)
      obtain ⟨r', rfl, hr'⟩ := L.together_of_cons hr₂ hr
      refine ⟨.header true path' key' ⟨_, r'⟩, r', ?_, .header hp.path hp.key h hr', hr'⟩
      rw [readHeader, readPath, hpath']
      rfl
    · cases hs
  · rename_i rest hsingle
    split at hs
    · rename_i path key rest' hpath
      cases hs
      have hlt := length_lt_of_readParts hpath
      simp only [List.length_cons] at hlt
      obtain ⟨t, rfl, ht⟩ := L.together_of_cons h (by omega)
      obtain ⟨⟨path', key'⟩, r₁, hpath', hp, hr₁⟩ :=
        like_of_readParts hA ht hpath (by simp; omega)
      obtain ⟨r', rfl, hr'⟩ := L.together_of_cons hr₁ hr
      refine ⟨.header false path' key' ⟨_, r'⟩, r', ?_, .header hp.path hp.key h hr', hr'⟩
      rw [readHeader.eq_2 _ (L.no_cons ht hsingle), readPath, hpath']
      rfl
    · cases hs
  · cases hs

/-- So is an assignment. -/
theorem like_of_readAssignment (hL : L.border = '\n') {st : Statement} (h : L.Together s t)
    (hs : readAssignment s = some (st, r)) (hr : L.gap ≤ r.length) :
    ∃ st' r', readAssignment t = some (st', r') ∧ st.Like A L st' ∧ L.Together r r' := by
  unfold readAssignment at hs
  split at hs
  · cases hs
  · rename_i path key rest htarget
    split at hs
    · cases hs
    · rename_i node rest' hvalue
      cases hs
      have hle := length_le_of_readFrom hvalue
      obtain ⟨p', t', htarget', hp, ht'⟩ := like_of_readTarget hA h htarget (by omega)
      obtain ⟨node', r', hvalue', hnode, hr'⟩ := like_of_readFrom hA hL .value .nil ht' hvalue hr
      refine ⟨.assignment ⟨p'.1, p'.2, node'⟩ r', r', ?_,
        .assignment (.of hp.path hp.key hnode) hr', hr'⟩
      simp only [readAssignment, htarget', readValue, hvalue']

theorem like_of_readBareStatement (hL : L.border = '\n') {st : Statement} (h : L.Together s t)
    (hs : readBareStatement s = some (st, r)) (hr : L.gap ≤ r.length) :
    ∃ st' r', readBareStatement t = some (st', r') ∧ st.Like A L st' ∧ L.Together r r' := by
  unfold readBareStatement at hs ⊢
  rw [← L.head?_eq h]
  split at hs
  · rw [if_pos ‹_›]
    exact like_of_readHeader hA h hs hr
  · rw [if_neg ‹_›]
    exact like_of_readAssignment hA hL h hs hr

/-- A statement before the border is read as a like statement. After its line the points belong
together, unless the border ended the line. -/
theorem like_of_readStatement (hL : L.border = '\n') {st : Statement} (h : L.Together s t)
    (hs : readStatement s = some (st, r)) (hr : L.gap = 0 ∨ r ≠ [] ∧ L.gap ≤ r.length + 1) :
    ∃ st' r', readStatement t = some (st', r') ∧ st.Like A L st' ∧ L.Behind r r' := by
  obtain ⟨rest, hbare, hend⟩ := readStatement_eq_some_iff.1 hs
  have hrest : L.gap ≤ rest.length := by
    rcases hr with hzero | ⟨hne, hle⟩
    · omega
    · have hlt : r.length < rest.length := by
        refine length_lt_of_readLineEnd hend ?_
        rintro rfl
        cases hend
        exact hne rfl
      omega
  obtain ⟨st', rest', hbare', hst, hrest'⟩ := like_of_readBareStatement hA hL h hbare hrest
  have hends := L.rel_readLineEnd hL hrest'
  rw [hend] at hends
  obtain ⟨r', hend', hr'⟩ := hends.exists_of_some
  exact ⟨st', r', readStatement_eq_some_iff.2 ⟨rest', hbare', hend'⟩, hst, hr'⟩

end BrokerAgent.Toml
