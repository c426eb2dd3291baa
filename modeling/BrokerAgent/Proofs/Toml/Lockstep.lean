import BrokerAgent.Toml.Value
import Mathlib.Data.List.Forall2

/-!
# Reading two texts with a part in common

Two texts may go on in different ways behind a part that they have in common. As long as a reader
stays within that part it does the same on both. A `Lockstep` says which points of the two texts
belong together. Each reader leads from points that belong together to such points again: a reader
of quoted texts if it stops in time, and a reader of numbers or dates in any case if the common part
ends with a line (`together_of_readScalar`).
-/

namespace Option.Rel

variable {α β γ δ : Type} {R : α → β → Prop} {S : γ → δ → Prop} {o : Option α} {o' : Option β}

/-- Related steps after related ones give related results. -/
theorem bind {f : α → Option γ} {f' : β → Option δ} (h : Option.Rel R o o')
    (hf : ∀ a b, R a b → Option.Rel S (f a) (f' b)) : Option.Rel S (o.bind f) (o'.bind f') := by
  cases h with
  | some h => exact hf _ _ h
  | none => exact .none

/-- Related functions of related values give related values. -/
theorem map {f : α → γ} {f' : β → δ} (h : Option.Rel R o o') (hf : ∀ a b, R a b → S (f a) (f' b)) :
    Option.Rel S (o.map f) (o'.map f') := by
  cases h with
  | some h => exact .some (hf _ _ h)
  | none => exact .none

/-- The same test may stand before both. -/
theorem guard {p : Prop} [Decidable p] (h : Option.Rel R o o') :
    Option.Rel R (if p then o else Option.none) (if p then o' else Option.none) := by
  split
  · exact h
  · exact .none

/-- Related alternatives are related. -/
theorem or {p : Option α} {p' : Option β} (h : Option.Rel R o o') (hp : Option.Rel R p p') :
    Option.Rel R (o.or p) (o'.or p') := by
  cases h with
  | some h => exact .some h
  | none => exact hp

theorem imp {R' : α → β → Prop} (h : Option.Rel R o o') (hR : ∀ a b, R a b → R' a b) :
    Option.Rel R' o o' := by
  cases h with
  | some h => exact .some (hR _ _ h)
  | none => exact .none

/-- A fold whose steps keep the relation keeps it. -/
theorem foldlM {ι κ : Type} {Q : ι → κ → Prop} {f : α → ι → Option α} {f' : β → κ → Option β}
    {l : List ι} {l' : List κ} (hl : List.Forall₂ Q l l')
    (hf : ∀ {a b x y}, R a b → Q x y → Option.Rel R (f a x) (f' b y)) {a : α} {b : β}
    (h : R a b) : Option.Rel R (l.foldlM f a) (l'.foldlM f' b) := by
  induction hl generalizing a b with
  | nil => exact .some h
  | cons hx _ ih =>
    rw [List.foldlM_cons, List.foldlM_cons]
    exact (hf h hx).bind fun a b hab => ih hab

/-- A value is related to values only. -/
theorem exists_of_some {a : α} (h : Option.Rel R (Option.some a) o') :
    ∃ b, o' = Option.some b ∧ R a b := by
  cases h with
  | some h => exact ⟨_, rfl, h⟩

/-- Only values are related to a value. -/
theorem exists_of_some_right {b : β} (h : Option.Rel R o (Option.some b)) :
    ∃ a, o = Option.some a ∧ R a b := by
  cases h with
  | some h => exact ⟨_, rfl, h⟩

/-- Only nothing is related to nothing. -/
theorem eq_none (h : Option.Rel R Option.none o') : o' = Option.none := by
  cases h
  rfl

end Option.Rel

namespace BrokerAgent.Toml

/-! ## Readers, case by case -/

section Readers

variable {s r : List Char}

theorem ne_newline_of_isDigit {c : Char} (hc : c.isDigit = true) : c ≠ '\n' := by
  rintro rfl
  cases hc

/-- Digits do not begin with a character that is none. -/
theorem readDigits_stuck {accepts : Char → Bool} {c : Char} (hc : accepts c = false)
    (s : List Char) : readDigits accepts (c :: s) = none := by
  cases s <;> grind [readDigits]

/-- Behind a point a number has places. -/
theorem readDecimal_point {negative : Bool} {whole rest : List Char}
    (h : readWhole s = some (whole, '.' :: rest)) :
    readDecimal negative s =
      match readDigits Char.isDigit rest with
      | none => none
      | some (places, rest) => finishNumber negative (whole ++ places) places.length rest := by
  rw [readDecimal, h]
  rfl

/-- Without a point it has none. -/
theorem readDecimal_whole {negative : Bool} {whole rest : List Char}
    (h : readWhole s = some (whole, rest)) (hrest : rest.head? ≠ some '.') :
    readDecimal negative s =
      if startsExponent rest then finishNumber negative whole 0 rest
      else (do return (← integer? negative (Text.numeral 10 whole), rest)) := by
  rw [readDecimal, h]
  split
  · simp_all
  · simp_all
  · rename_i heq
    cases heq
    cases integer? negative (Text.numeral 10 whole) <;> rfl

/-- Reads a number in the usual base, or a word, behind its sign. -/
def readUnsigned (negative : Bool) : List Char → Option (Scalar × List Char)
  | 'i' :: letters => (readWord ['n', 'f'] letters).map (.infinity negative, ·)
  | 'n' :: letters => (readWord ['a', 'n'] letters).map (.notANumber, ·)
  | rest => readDecimal negative rest

/-- A number without a letter for its base has nothing but a sign before it. -/
theorem readNumber_eq (hx : ∀ rest, s = '0' :: 'x' :: rest → False)
    (ho : ∀ rest, s = '0' :: 'o' :: rest → False) (hb : ∀ rest, s = '0' :: 'b' :: rest → False) :
    readNumber s = readUnsigned (readSign s).1 (readSign s).2 := by
  rw [readNumber.eq_4 s hx ho hb]
  rfl

/-- What is left of a line behind blanks and a comment. -/
def lineRest (s : List Char) : List Char :=
  if (skipBlanks s).head? = some '#' then (skipBlanks s).tail.dropWhile isTextChar
  else skipBlanks s

/-- A line ends behind blanks and a comment. -/
theorem readLineEnd_eq (s : List Char) :
    readLineEnd s = if lineRest s = [] then some [] else newline? (lineRest s) := by
  unfold readLineEnd lineRest
  dsimp only
  cases skipBlanks s with
  | nil => rfl
  | cons c rest =>
    by_cases hc : c = '#'
    · subst hc
      rw [if_pos List.head?_cons, List.tail_cons]
      cases hrest : rest.dropWhile isTextChar <;> simp [hrest]
    · simp [hc]

/-- What is left of a line is the end of it. -/
theorem lineRest_suffix (s : List Char) : lineRest s <:+ s := by
  have hblanks : skipBlanks s <:+ s := List.dropWhile_suffix _
  unfold lineRest
  split
  · exact (List.dropWhile_suffix _).trans ((List.tail_suffix _).trans hblanks)
  · exact hblanks

/-- To drop as many characters as were taken is to drop those. -/
theorem drop_takeWhile (p : Char → Bool) (s : List Char) :
    s.drop (s.takeWhile p).length = s.dropWhile p :=
  calc s.drop (s.takeWhile p).length
    _ = (s.takeWhile p ++ s.dropWhile p).drop (s.takeWhile p).length := by
      rw [List.takeWhile_append_dropWhile]
    _ = s.dropWhile p := List.drop_left

/-- A text goes on behind a line that is continued. -/
theorem readBasicLines_continued (h : continuation? s = some r) :
    readBasicLines ('\\' :: s) = readBasicLines r := by
  rw [readBasicLines, if_pos rfl]
  · split <;> grind
  all_goals simp

/-- A character of a text on several lines may be escaped. -/
theorem readBasicLines_escaped {d : Char} {text after : List Char} (hs : continuation? s = none)
    (hescape : readEscape s = some (d, r)) (hr : readBasicLines r = some (text, after)) :
    readBasicLines ('\\' :: s) = some (d :: text, after) := by
  rw [readBasicLines, if_pos rfl]
  · split
    · grind
    · split <;> grind
  all_goals simp

end Readers

/-! ## Points that belong together -/

/-- The points of two texts that belong together: the same characters follow, up to a last one,
which is given by itself and by the number of characters that the first text has from there on.
Behind it, `right` is what the second text has. -/
structure Lockstep where
  Together : List Char → List Char → Prop
  border : Char
  gap : Nat
  right : List Char
  nil : ∀ {t}, Together [] t → t = []
  cons : ∀ {c s t}, Together (c :: s) t →
    ∃ t', t = c :: t' ∧ (Together s t' ∨ c = border ∧ s.length + 1 = gap ∧ t' = right)

attribute [grind →] Lockstep.nil Lockstep.cons

namespace Lockstep

/-- What is read from two texts is related, and so are the points where reading stops. -/
def After (L : Lockstep) {α β : Type} (A : α → β → Prop) (p : α × List Char) (q : β × List Char) :
    Prop :=
  A p.1 q.1 ∧ L.Together p.2 q.2

/-- The points belong together, or they are the ones behind the border. -/
def Behind (L : Lockstep) (s t : List Char) : Prop :=
  L.Together s t ∨ s.length + 1 = L.gap ∧ t = L.right

attribute [grind] After Behind

variable {L : Lockstep} {s t r : List Char}

/-- Two texts end together or go on with the same character. -/
theorem uncons (h : L.Together s t) :
    s = [] ∧ t = [] ∨ ∃ c s' t', s = c :: s' ∧ t = c :: t' ∧
      (L.Together s' t' ∨ c = L.border ∧ s'.length + 1 = L.gap) := by
  cases s with
  | nil => exact .inl ⟨rfl, L.nil h⟩
  | cons c s =>
    obtain ⟨t', rfl, hs⟩ := L.cons h
    exact .inr ⟨c, s, t', rfl, rfl, hs.imp_right fun hs => ⟨hs.1, hs.2.1⟩⟩

/-- The next character is the same. -/
theorem head?_eq (h : L.Together s t) : s.head? = t.head? := by
  rcases L.uncons h with ⟨rfl, rfl⟩ | ⟨c, s, t, rfl, rfl, -⟩ <;> rfl

/-- A character other than the border follows in both texts. -/
theorem cons_of_ne {c : Char} (hc : c ≠ L.border) (h : L.Together (c :: s) t) :
    ∃ t', t = c :: t' ∧ L.Together s t' := by
  grind

/-- What follows in the second text follows in the first. -/
theorem of_cons {c : Char} (h : L.Together s (c :: t)) :
    ∃ s', s = c :: s' ∧ (L.Together s' t ∨ c = L.border ∧ s'.length + 1 = L.gap) := by
  rcases L.uncons h with ⟨-, heq⟩ | ⟨d, s', t', rfl, heq, htail⟩
  · cases heq
  · obtain ⟨rfl, rfl⟩ := List.cons.inj heq
    exact ⟨s', rfl, htail⟩

/-- A character that does not follow in the one text does not in the other. -/
theorem no_cons {c : Char} (h : L.Together s t) (hs : ∀ rest, s = c :: rest → False)
    (rest : List Char) : t = c :: rest → False := by
  rintro rfl
  obtain ⟨s, rfl, -⟩ := of_cons h
  exact hs s rfl

/-- A pair of characters that does not follow in the one text does not in the other. -/
theorem no_pair {c d : Char} (hc : c ≠ L.border) (h : L.Together s t)
    (hs : ∀ rest, s = c :: d :: rest → False) (rest : List Char) : t = c :: d :: rest → False := by
  rintro rfl
  obtain ⟨s, rfl, htail⟩ := of_cons h
  obtain ⟨s, rfl, -⟩ := of_cons (htail.resolve_right fun htail => hc htail.1)
  exact hs s rfl

/-! ## Blanks -/

/-- What is dropped before the border is dropped from both. -/
theorem together_dropWhile_of_le {p : Char → Bool} (h : L.Together s t)
    (hr : L.gap ≤ (s.dropWhile p).length) :
    s.takeWhile p = t.takeWhile p ∧ L.Together (s.dropWhile p) (t.dropWhile p) := by
  have hl := fun s => (List.dropWhile_sublist (l := s) p).length_le
  induction s generalizing t <;>
    grind [List.takeWhile_cons, List.dropWhile_cons, List.takeWhile_nil, List.dropWhile_nil]

theorem together_skipBlanks_of_le (h : L.Together s t) (hr : L.gap ≤ (skipBlanks s).length) :
    L.Together (skipBlanks s) (skipBlanks t) :=
  (together_dropWhile_of_le h hr).2

/-- A character before the border follows in both texts. -/
theorem together_of_cons {c : Char} (h : L.Together (c :: s) t) (hs : L.gap ≤ s.length) :
    ∃ t', t = c :: t' ∧ L.Together s t' := by
  grind

/-- So does one behind blanks. -/
theorem together_of_skipBlanks {c : Char} (h : L.Together s t) (hs : skipBlanks s = c :: r)
    (hr : L.gap ≤ r.length) : ∃ r', skipBlanks t = c :: r' ∧ L.Together r r' := by
  have hskip := together_skipBlanks_of_le h (by rw [hs, List.length_cons]; omega)
  rw [hs] at hskip
  exact together_of_cons hskip hr

/-! ## Texts on one line -/

/-- The same digits are read before the border. -/
theorem together_of_readHex {n count m : Nat} (h : L.Together s t)
    (hs : readHex n count s = some (m, r)) (hr : L.gap ≤ r.length) :
    ∃ r', readHex n count t = some (m, r') ∧ L.Together r r' := by
  have hl := @length_le_of_readHex
  fun_induction readHex n count s generalizing t <;> grind [readHex]

/-- So is the character that they number. -/
theorem together_of_readCodePoint {count : Nat} {c : Char} (h : L.Together s t)
    (hs : readCodePoint count s = some (c, r)) (hr : L.gap ≤ r.length) :
    ∃ r', readCodePoint count t = some (c, r') ∧ L.Together r r' := by
  have hx := @together_of_readHex L
  unfold readCodePoint at hs
  grind [readCodePoint]

/-- An escaped character before the border is read from both texts. -/
theorem together_of_readEscape {c : Char} (h : L.Together s t) (hs : readEscape s = some (c, r))
    (hr : L.gap ≤ r.length) : ∃ r', readEscape t = some (c, r') ∧ L.Together r r' := by
  have hu := @together_of_readCodePoint L
  have hl := @length_le_of_readCodePoint
  fun_cases readEscape s <;> grind [readEscape]

/-- A text in double quotes that ends before the border is read from both. -/
theorem together_of_readBasic {text : List Char} (h : L.Together s t)
    (hs : readBasic s = some (text, r)) (hr : L.gap ≤ r.length) :
    ∃ r', readBasic t = some (text, r') ∧ L.Together r r' := by
  have he := @together_of_readEscape L
  have hl := @length_lt_of_readEscape
  have hl' := @length_lt_of_readBasic
  fun_induction readBasic s generalizing t text <;> grind [readBasic]

/-- So is one in single quotes. -/
theorem together_of_readLiteral {text : List Char} (h : L.Together s t)
    (hs : readLiteral s = some (text, r)) (hr : L.gap ≤ r.length) :
    ∃ r', readLiteral t = some (text, r') ∧ L.Together r r' := by
  have hl := @length_lt_of_readLiteral
  fun_induction readLiteral s generalizing t text <;> grind [readLiteral]

/-! ## Up to the end of a line

From here on the common part ends with a line, unless the two texts end together. -/

section Line

variable (hL : L.border = '\n')
include hL

/-- Nothing is taken beyond the end of a line, so the same is taken from both. -/
theorem takeWhile_eq {p : Char → Bool} (hp : p '\n' = false) (h : L.Together s t) :
    s.takeWhile p = t.takeWhile p := by
  induction s generalizing t <;> grind [List.takeWhile_cons, List.takeWhile_nil]

/-- The same is dropped from both. -/
theorem together_dropWhile {p : Char → Bool} (hp : p '\n' = false) (h : L.Together s t) :
    L.Together (s.dropWhile p) (t.dropWhile p) := by
  induction s generalizing t <;> grind [List.dropWhile_cons, List.dropWhile_nil]

theorem together_skipBlanks (h : L.Together s t) : L.Together (skipBlanks s) (skipBlanks t) :=
  together_dropWhile hL (by decide) h

/-- A line ends in both texts or in neither. -/
theorem rel_newline? (h : L.Together s t) : Option.Rel L.Behind (newline? s) (newline? t) := by
  fun_cases newline? s with
  | case1 | case2 => grind [newline?, Option.Rel]
  | case3 _ hline hreturn =>
    rcases L.uncons h with ⟨rfl, rfl⟩ | ⟨c, s, t, rfl, rfl, -⟩
    · exact .none
    have hc : c ≠ '\n' := fun hc => hline s (by rw [hc])
    rw [newline?]
    · exact .none
    · exact fun rest heq => hc (List.cons.inj heq).1
    · intro rest heq
      obtain ⟨rfl, -⟩ := List.cons.inj heq
      exact no_pair (by rw [hL]; decide) h hreturn rest heq

/-- What stands before the end of a line is passed over in both texts. -/
theorem together_lineRest (h : L.Together s t) : L.Together (lineRest s) (lineRest t) := by
  have hb := together_skipBlanks hL h
  unfold lineRest
  rw [← head?_eq hb]
  split
  · rename_i hhash
    rcases L.uncons hb with ⟨hs, -⟩ | ⟨c, s', t', hs, ht, htail⟩
    · rw [hs] at hhash
      cases hhash
    · rw [hs] at hhash
      rw [hs, ht]
      obtain rfl : c = '#' := Option.some.inj hhash
      exact together_dropWhile hL (by decide) (htail.resolve_right (by simp [hL]))
  · exact hb

theorem rel_readLineEnd (h : L.Together s t) :
    Option.Rel L.Behind (readLineEnd s) (readLineEnd t) := by
  have hrest := together_lineRest hL h
  rw [readLineEnd_eq, readLineEnd_eq]
  rcases L.uncons hrest with ⟨hs, ht⟩ | ⟨c, s', t', hs, ht, -⟩
  · rw [if_pos hs, if_pos ht]
    rw [hs, ht] at hrest
    exact .some (.inl hrest)
  · rw [if_neg (hs ▸ List.cons_ne_nil c s'), if_neg (ht ▸ List.cons_ne_nil c t')]
    exact rel_newline? hL hrest

/-! ## Dates and times -/

/-- Digits are read alike, since none of them ends a line. -/
theorem rel_readDigits {accepts : Char → Bool} (ha : accepts '\n' = false) (h : L.Together s t) :
    Option.Rel (L.After Eq) (readDigits accepts s) (readDigits accepts t) := by
  have hstuck := readDigits_stuck ha
  fun_induction readDigits accepts s generalizing t <;> grind [readDigits, Option.Rel]

theorem rel_readDecimalDigits (h : L.Together s t) :
    Option.Rel (L.After Eq) (readDigits Char.isDigit s) (readDigits Char.isDigit t) :=
  rel_readDigits hL (by decide) h

/-- So are digits of a given number. -/
theorem rel_readFixed {n count : Nat} (h : L.Together s t) :
    Option.Rel (L.After Eq) (readFixed n count s) (readFixed n count t) := by
  have hd := @ne_newline_of_isDigit
  fun_induction readFixed n count s generalizing t <;> grind [readFixed, Option.Rel]

/-- So is a given character, unless it ends a line. -/
theorem rel_readChar {c : Char} (hc : c ≠ '\n') (h : L.Together s t) :
    Option.Rel L.Together (readChar c s) (readChar c t) := by
  cases s <;> grind [readChar, Option.Rel]

/-- So are the letters of a word. -/
theorem rel_readWord {letters : List Char} (hl : '\n' ∉ letters) (h : L.Together s t) :
    Option.Rel L.Together (readWord letters s) (readWord letters t) := by
  fun_induction readWord letters s generalizing t <;> grind [readWord, Option.Rel]

/-- A day is read from both texts or from neither. -/
theorem rel_readDay (h : L.Together s t) : Option.Rel L.Together (readDay s) (readDay t) := by
  refine (rel_readFixed hL h).bind ?_
  rintro ⟨year, s⟩ ⟨_, t⟩ ⟨rfl, h⟩
  refine (rel_readChar hL (by decide) h).bind fun s t h => ?_
  refine (rel_readFixed hL h).bind ?_
  rintro ⟨month, s⟩ ⟨_, t⟩ ⟨rfl, h⟩
  refine (rel_readChar hL (by decide) h).bind fun s t h => ?_
  refine (rel_readFixed hL h).bind ?_
  rintro ⟨day, s⟩ ⟨_, t⟩ ⟨rfl, h⟩
  exact .guard (.some h)

/-- The fraction of a second is passed over in both texts. -/
theorem together_skipSecondFraction (h : L.Together s t) :
    L.Together (skipSecondFraction s) (skipSecondFraction t) := by
  rcases L.uncons h with ⟨rfl, rfl⟩ | ⟨c, s, t, rfl, rfl, hs⟩
  · exact h
  by_cases hc : c = '.'
  · subst hc
    have hs := hs.resolve_right (by simp [hL])
    rcases L.uncons hs with ⟨rfl, rfl⟩ | ⟨d, s, t, rfl, rfl, hd⟩
    · exact h
    rw [skipSecondFraction, skipSecondFraction]
    split
    · rename_i hdigit
      have hne := ne_newline_of_isDigit hdigit
      exact together_dropWhile hL (by decide) (hd.resolve_right fun hd => hne (hd.1.trans hL))
    · exact h
  · have hstay : ∀ r, skipSecondFraction (c :: r) = c :: r := by
      intro r
      rw [skipSecondFraction]
      exact fun d rest heq => hc (List.cons.inj heq).1
    rwa [hstay, hstay]

/-- Hours and minutes are read from both texts or from neither. -/
theorem rel_readMinutes (h : L.Together s t) :
    Option.Rel L.Together (readMinutes s) (readMinutes t) := by
  refine (rel_readFixed hL h).bind ?_
  rintro ⟨hour, s⟩ ⟨_, t⟩ ⟨rfl, h⟩
  refine (rel_readChar hL (by decide) h).bind fun s t h => ?_
  refine (rel_readFixed hL h).bind ?_
  rintro ⟨minute, s⟩ ⟨_, t⟩ ⟨rfl, h⟩
  exact .guard (.some h)

/-- So is the time of a day. -/
theorem rel_readTime (h : L.Together s t) :
    Option.Rel L.Together (readTime s) (readTime t) := by
  refine (rel_readMinutes hL h).bind fun s t h => ?_
  refine (rel_readChar hL (by decide) h).bind fun s t h => ?_
  refine (rel_readFixed hL h).bind ?_
  rintro ⟨second, s⟩ ⟨_, t⟩ ⟨rfl, h⟩
  exact .guard (.some (together_skipSecondFraction hL h))

theorem together_skipOffset (h : L.Together s t) : L.Together (skipOffset s) (skipOffset t) := by
  have hsign : ∀ {c s' t'}, c ≠ '\n' → s = c :: s' → t = c :: t' →
      L.Together ((readMinutes s').getD s) ((readMinutes t').getD t) := by
    rintro c s' t' hc rfl rfl
    obtain ⟨_, heq, hrest⟩ := cons_of_ne (by rwa [hL]) h
    obtain rfl := (List.cons.inj heq).2
    have hminutes := rel_readMinutes hL hrest
    generalize readMinutes s' = a, readMinutes t' = b at hminutes ⊢
    cases hminutes with
    | none => exact h
    | some hab => exact hab
  fun_cases skipOffset s with
  | case5 =>
    rcases L.uncons h with ⟨rfl, rfl⟩ | ⟨c, s, t, rfl, rfl, -⟩
    · exact h
    · simp_all [skipOffset]
  | case1 | case2 => grind [skipOffset]
  | case3 | case4 =>
    obtain ⟨t, rfl, -⟩ := L.cons h
    exact hsign (by decide) rfl rfl

/-- A date, a time, or the one with the other is read from both texts or from neither. -/
theorem rel_readMoment (h : L.Together s t) :
    Option.Rel L.Together (readMoment s) (readMoment t) := by
  have hday := rel_readDay hL h
  unfold readMoment
  generalize readDay s = day, readDay t = day' at hday ⊢
  cases hday with
  | none => exact rel_readTime hL h
  | some hrest =>
    rcases L.uncons hrest with ⟨rfl, rfl⟩ | ⟨c, s, t, rfl, rfl, htail⟩
    · exact .some hrest
    dsimp only
    split
    · rename_i hc
      have htime := rel_readTime hL (htail.resolve_right (by
        rw [hL]
        rintro ⟨rfl, -⟩
        cases hc))
      generalize readTime s = time, readTime t = time' at htime ⊢
      cases htime with
      | none => exact .some hrest
      | some hafter => exact .some (together_skipOffset hL hafter)
    · exact .some hrest

/-! ## Numbers -/

/-- The same sign is read from both. -/
theorem together_readSign (h : L.Together s t) :
    (readSign s).1 = (readSign t).1 ∧ L.Together (readSign s).2 (readSign t).2 := by
  fun_cases readSign s with
  | case3 =>
    rcases L.uncons h with ⟨rfl, rfl⟩ | ⟨c, s, t, rfl, rfl, -⟩
    · exact ⟨rfl, h⟩
    · simp_all [readSign]
  | case1 | case2 => grind [readSign]

/-- The whole part of a number is read alike. -/
theorem rel_readWhole (h : L.Together s t) :
    Option.Rel (L.After Eq) (readWhole s) (readWhole t) := by
  have hd := rel_readDecimalDigits hL h
  fun_cases readWhole s with
  | case2 =>
    rcases L.uncons h with ⟨rfl, rfl⟩ | ⟨c, s, t, rfl, rfl, -⟩
    · exact hd
    · simp_all [readWhole]
  | case1 => grind [readWhole, Option.Rel]

/-- So is its exponent. -/
theorem rel_readPower (h : L.Together s t) :
    Option.Rel (L.After Eq) (readPower s) (readPower t) := by
  obtain ⟨hsign, hrest⟩ := together_readSign hL h
  have hd := rel_readDecimalDigits hL hrest
  unfold readPower
  grind [Option.Rel]

omit hL in
theorem startsExponent_eq (h : L.Together s t) : startsExponent s = startsExponent t := by
  rcases L.uncons h with ⟨rfl, rfl⟩ | ⟨c, s, t, rfl, rfl, -⟩
  · rfl
  · unfold startsExponent
    grind

omit hL in
/-- The same value, or none, is read from both. -/
theorem rel_pair (o : Option Scalar) (h : L.Together s t) :
    Option.Rel (L.After Eq) (do return (← o, s)) (do return (← o, t)) := by
  cases o with
  | none => exact .none
  | some v => exact .some ⟨rfl, h⟩

/-- A number of which the digits have been read ends alike. -/
theorem rel_finishNumber {negative : Bool} {digits : List Char} {places : Nat}
    (h : L.Together s t) :
    Option.Rel (L.After Eq) (finishNumber negative digits places s)
      (finishNumber negative digits places t) := by
  unfold finishNumber
  by_cases he : startsExponent s = true
  · rw [if_pos he, if_pos (startsExponent_eq h ▸ he)]
    have hdrop : L.Together (s.drop 1) (t.drop 1) := by
      rcases L.uncons h with ⟨rfl, rfl⟩ | ⟨c, s, t, rfl, rfl, htail⟩
      · exact h
      · refine htail.resolve_right ?_
        rw [hL]
        rintro ⟨rfl, -⟩
        cases he
    refine (rel_readPower hL hdrop).bind ?_
    rintro ⟨power, s⟩ ⟨_, t⟩ ⟨rfl, h⟩
    exact rel_pair (number? negative digits (power - places)) h
  · rw [if_neg he, if_neg (startsExponent_eq h ▸ he)]
    exact rel_pair (number? negative digits (-places)) h

/-- A number in the usual base is read alike. -/
theorem rel_readDecimal (negative : Bool) (h : L.Together s t) :
    Option.Rel (L.After Eq) (readDecimal negative s) (readDecimal negative t) := by
  have hwhole := rel_readWhole hL h
  cases hs : readWhole s with
  | none =>
    rw [hs] at hwhole
    generalize ht : readWhole t = b at hwhole
    cases hwhole
    rw [readDecimal, readDecimal, hs, ht]
    exact .none
  | some p =>
    obtain ⟨digits, rest⟩ := p
    rw [hs] at hwhole
    obtain ⟨⟨_, rest'⟩, ht, rfl, hrest⟩ := hwhole.exists_of_some
    dsimp only at ht hrest
    have hinteger := rel_pair (integer? negative (Text.numeral 10 digits)) hrest
    rcases L.uncons hrest with ⟨rfl, rfl⟩ | ⟨c, rest, rest', rfl, rfl, htail⟩
    · rw [readDecimal_whole hs (by simp), readDecimal_whole ht (by simp)]
      simpa [startsExponent] using hinteger
    by_cases hpoint : c = '.'
    · subst hpoint
      rw [readDecimal_point hs, readDecimal_point ht]
      have hplaces := rel_readDecimalDigits hL (htail.resolve_right (by simp [hL]))
      generalize readDigits Char.isDigit rest = a, readDigits Char.isDigit rest' = b at hplaces ⊢
      rcases hplaces with @⟨⟨places, s⟩, ⟨_, t⟩, rfl, hrest⟩ | _
      · exact rel_finishNumber hL hrest
      · exact .none
    · have hhead : ∀ r : List Char, (c :: r).head? ≠ some '.' :=
        fun _ heq => hpoint (Option.some.inj heq)
      rw [readDecimal_whole hs (hhead _), readDecimal_whole ht (hhead _), startsExponent_eq hrest]
      split
      · exact rel_finishNumber hL hrest
      · simpa using hinteger

/-- So is one in another base. -/
theorem rel_readBased {base : Nat} {accepts : Char → Bool} (ha : accepts '\n' = false)
    (h : L.Together s t) :
    Option.Rel (L.After Eq) (readBased base accepts s) (readBased base accepts t) := by
  refine (rel_readDigits hL ha h).bind ?_
  rintro ⟨digits, s⟩ ⟨_, t⟩ ⟨rfl, h⟩
  exact rel_pair (integer? false (Text.numeral base digits)) h

/-- So is what may stand behind a sign. -/
theorem rel_readUnsigned {negative : Bool} (h : L.Together s t) :
    Option.Rel (L.After Eq) (readUnsigned negative s) (readUnsigned negative t) := by
  rcases L.uncons h with ⟨rfl, rfl⟩ | ⟨c, s, t, rfl, rfl, htail⟩
  · exact rel_readDecimal hL negative h
  have hword : ∀ {letters} (v : Scalar), c ≠ '\n' → '\n' ∉ letters → Option.Rel (L.After Eq)
      ((readWord letters s).map (v, ·)) ((readWord letters t).map (v, ·)) := by
    intro letters v hc hl
    have hs := htail.resolve_right fun htail => hc (htail.1.trans hL)
    exact (rel_readWord hL hl hs).map fun a b hab => ⟨rfl, hab⟩
  by_cases hi : c = 'i'
  · subst hi
    exact hword _ (by decide) (by decide)
  by_cases hn : c = 'n'
  · subst hn
    exact hword _ (by decide) (by decide)
  have hother : ∀ r, readUnsigned negative (c :: r) = readDecimal negative (c :: r) := by
    intro r
    rw [readUnsigned]
    · exact fun letters heq => hi (List.cons.inj heq).1
    · exact fun letters heq => hn (List.cons.inj heq).1
  rw [hother, hother]
  exact rel_readDecimal hL negative h

/-- Whatever begins like a number is read alike. -/
theorem rel_readNumber (h : L.Together s t) :
    Option.Rel (L.After Eq) (readNumber s) (readNumber t) := by
  have hbased := @rel_readBased L
  have hhex : (Text.hexDigit? '\n').isSome = false := by decide
  by_cases hx : ∃ rest, s = '0' :: 'x' :: rest
  · grind [readNumber]
  by_cases ho : ∃ rest, s = '0' :: 'o' :: rest
  · grind [readNumber]
  by_cases hb : ∃ rest, s = '0' :: 'b' :: rest
  · grind [readNumber]
  have hother : ∀ {d}, (¬ ∃ rest, s = '0' :: d :: rest) →
      (∀ rest, s = '0' :: d :: rest → False) ∧ ∀ rest, t = '0' :: d :: rest → False := by
    intro d hd
    have hs : ∀ rest, s = '0' :: d :: rest → False := fun rest heq => hd ⟨rest, heq⟩
    exact ⟨hs, no_pair (by rw [hL]; decide) h hs⟩
  obtain ⟨hx₁, hx₂⟩ := hother hx
  obtain ⟨ho₁, ho₂⟩ := hother ho
  obtain ⟨hb₁, hb₂⟩ := hother hb
  obtain ⟨hsign, hrest⟩ := together_readSign hL h
  rw [readNumber_eq hx₁ ho₁ hb₁, readNumber_eq hx₂ ho₂ hb₂, hsign]
  exact rel_readUnsigned hL hrest

/-! ## Texts on several lines -/

/-- A character that does not begin the end of a line does not in the other text. -/
theorem cons_of_no_newline {c : Char} (h : L.Together (c :: s) t) (hline : c = '\n' → False)
    (hreturn : ∀ rest, c = '\r' → s = '\n' :: rest → False) :
    ∃ t', t = c :: t' ∧ L.Together s t' ∧ ∀ rest, c = '\r' → t' = '\n' :: rest → False := by
  obtain ⟨t', rfl, hs⟩ := cons_of_ne (by rwa [hL]) h
  refine ⟨t', rfl, hs, ?_⟩
  rintro rest hc rfl
  obtain ⟨s', rfl, -⟩ := of_cons hs
  exact hreturn s' hc rfl

/-- Lines that say nothing are passed over in both texts as long as the border is not reached. -/
theorem together_skipLines {inComment : Bool} (h : L.Together s t)
    (hr : L.gap ≤ (skipLines inComment s).length) :
    L.Together (skipLines inComment s) (skipLines inComment t) := by
  have hl := length_skipLines_le
  fun_induction skipLines inComment s generalizing t with
  | case1 | case2 | case3 => grind [skipLines]
  | case4 _ _ hline hreturn | case5 _ _ hline hreturn | case6 _ _ _ hline hreturn
  | case7 _ _ _ hline hreturn | case8 _ _ _ hline hreturn =>
    obtain ⟨t, rfl, ht, hreturn'⟩ := cons_of_no_newline hL h hline hreturn
    grind [skipLines]

/-- A character before the border follows in both texts behind lines that say nothing. -/
theorem together_of_skipLines {inComment : Bool} {c : Char} (h : L.Together s t)
    (hs : skipLines inComment s = c :: r) (hr : L.gap ≤ r.length) :
    ∃ r', skipLines inComment t = c :: r' ∧ L.Together r r' := by
  have hskip := together_skipLines hL h (by rw [hs, List.length_cons]; omega)
  rw [hs] at hskip
  exact together_of_cons hskip hr

/-- So are blanks and the ends of lines in a text. -/
theorem together_skipWhite (h : L.Together s t) (hr : L.gap ≤ (skipWhite s).length) :
    L.Together (skipWhite s) (skipWhite t) := by
  have hl := length_skipWhite_le
  fun_induction skipWhite s generalizing t with
  | case1 | case2 | case3 => grind [skipWhite]
  | case4 _ _ hline hreturn | case5 _ _ hline hreturn =>
    obtain ⟨t, rfl, ht, hreturn'⟩ := cons_of_no_newline hL h hline hreturn
    grind [skipWhite]

/-- A line goes on after its end in both texts or in neither. -/
theorem continuation?_cases (h : L.Together s t) :
    continuation? s = none ∧ continuation? t = none ∨
      ∃ r, continuation? s = some r ∧
        (L.gap ≤ r.length → ∃ r', continuation? t = some r' ∧ L.Together r r') := by
  have hn := rel_newline? hL (together_skipBlanks hL h)
  unfold continuation?
  generalize newline? (skipBlanks s) = a, newline? (skipBlanks t) = b at hn ⊢
  cases hn with
  | none => exact .inl ⟨rfl, rfl⟩
  | @some r r' hrr =>
    refine .inr ⟨_, rfl, fun hr => ⟨_, rfl, together_skipWhite hL ?_ hr⟩⟩
    have := length_skipWhite_le r
    exact hrr.resolve_right fun hb => by omega

/-- So is the end of a line at the beginning of a text. -/
theorem together_skipFirstNewline (h : L.Together s t)
    (hr : L.gap ≤ (skipFirstNewline s).length) :
    L.Together (skipFirstNewline s) (skipFirstNewline t) := by
  have hn := rel_newline? hL h
  unfold skipFirstNewline at hr ⊢
  generalize newline? s = a, newline? t = b at hn hr ⊢
  cases hn with
  | none => exact h
  | some hrr => exact hrr.resolve_right fun hb => by dsimp only at hr; omega

/-- The quotes at the end of a text on several lines are read alike. -/
theorem rel_closeLines {quote : Char} (hq : quote ≠ '\n') (h : L.Together s t) :
    Option.Rel (L.After Eq) (closeLines quote s) (closeLines quote t) := by
  have hp : decide ('\n' = quote) = false := decide_eq_false hq.symm
  have htake : s.takeWhile (· = quote) = t.takeWhile (· = quote) := takeWhile_eq hL hp h
  have hdrop : L.Together (s.dropWhile (· = quote)) (t.dropWhile (· = quote)) :=
    together_dropWhile hL hp h
  rw [← drop_takeWhile, ← drop_takeWhile] at hdrop
  unfold closeLines
  dsimp only
  rw [← htake] at hdrop ⊢
  exact .guard (.some ⟨rfl, hdrop⟩)

/-- A text on several lines in single quotes that ends before the border is read from both. -/
theorem together_of_readLiteralLines {text : List Char} (h : L.Together s t)
    (hs : readLiteralLines s = some (text, r)) (hr : L.gap ≤ r.length) :
    ∃ r', readLiteralLines t = some (text, r') ∧ L.Together r r' := by
  have hl := @length_lt_of_readLiteralLines
  have hq := @rel_closeLines L
  fun_induction readLiteralLines s generalizing t text with
  | case1 | case3 | case5 | case7 => cases hs
  | case2 => grind [readLiteralLines, Option.Rel]
  | case4 => grind [readLiteralLines]
  | case6 c rest hquotes hreturn hc text after hrest ih =>
    obtain ⟨t, rfl, ht | hborder⟩ := L.cons h
    · have hquotes' : ∀ rest, c = '\'' → t = '\'' :: '\'' :: rest → False := fun rest hc =>
        no_pair (by rw [hL]; decide) ht (fun rest => hquotes rest hc) rest
      have hreturn' : ∀ rest, c = '\r' → t = '\n' :: rest → False := fun rest hc =>
        no_cons ht (fun rest => hreturn rest hc) rest
      grind [readLiteralLines]
    · grind

/-- So is one in double quotes. -/
theorem together_of_readBasicLines {text : List Char} (h : L.Together s t)
    (hs : readBasicLines s = some (text, r)) (hr : L.gap ≤ r.length) :
    ∃ r', readBasicLines t = some (text, r') ∧ L.Together r r' := by
  have hl := @length_lt_of_readBasicLines
  have hq := @rel_closeLines L
  have hb : L.border ≠ '\\' := by rw [hL]; decide
  fun_induction readBasicLines s generalizing t text with
  | case1 | case3 | case6 | case7 | case9 | case11 => cases hs
  | case2 => grind [readBasicLines, Option.Rel]
  | case4 => grind [readBasicLines]
  | case5 rest rest' hgoes _ _ ih =>
    obtain ⟨t, rfl, ht⟩ := cons_of_ne hb.symm h
    have hc := continuation?_cases hL ht
    have hlt := hl hs
    obtain ⟨r', hgoes', hr'⟩ : ∃ r', continuation? t = some r' ∧ L.Together rest' r' := by grind
    rw [readBasicLines_continued hgoes']
    exact ih hr' hs
  | case8 rest hgoes d rest' hescape text after hrest _ _ ih =>
    obtain ⟨t, rfl, ht⟩ := cons_of_ne hb.symm h
    have hc := continuation?_cases hL ht
    have hlt := hl hrest
    cases hs
    obtain ⟨r', hescape', hr'⟩ := together_of_readEscape ht hescape (by omega)
    obtain ⟨after', hafter', hend⟩ := ih hr' hrest
    exact ⟨after', readBasicLines_escaped (by grind) hescape' hafter', hend⟩
  | case10 c rest hquotes hreturn hslash hc text after hrest ih =>
    obtain ⟨t, rfl, ht | hborder⟩ := L.cons h
    · have hquotes' : ∀ rest, c = '"' → t = '"' :: '"' :: rest → False := fun rest hc =>
        no_pair (by rw [hL]; decide) ht (fun rest => hquotes rest hc) rest
      have hreturn' : ∀ rest, c = '\r' → t = '\n' :: rest → False := fun rest hc =>
        no_cons ht (fun rest => hreturn rest hc) rest
      grind [readBasicLines]
    · grind

/-- Any text that ends before the border is read from both. -/
theorem together_of_readText {text : List Char} (h : L.Together s t)
    (hs : readText s = some (text, r)) (hr : L.gap ≤ r.length) :
    ∃ r', readText t = some (text, r') ∧ L.Together r r' := by
  have hbasic : L.border ≠ '"' := by rw [hL]; decide
  have hliteral : L.border ≠ '\'' := by rw [hL]; decide
  have hfirst := length_skipFirstNewline_le
  unfold readText at hs
  split at hs
  · rename_i rest
    obtain ⟨t, rfl, ht⟩ : ∃ t', t = '"' :: '"' :: '"' :: t' ∧ L.Together rest t' := by grind
    have hlt := length_lt_of_readBasicLines hs
    exact together_of_readBasicLines hL (together_skipFirstNewline hL ht (by omega)) hs hr
  · rename_i rest hquotes
    obtain ⟨t, rfl, ht⟩ := cons_of_ne hbasic.symm h
    rw [readText]
    · exact together_of_readBasic ht hs hr
    · exact no_pair hbasic.symm ht hquotes
  · rename_i rest
    obtain ⟨t, rfl, ht⟩ : ∃ t', t = '\'' :: '\'' :: '\'' :: t' ∧ L.Together rest t' := by grind
    have hlt := length_lt_of_readLiteralLines hs
    exact together_of_readLiteralLines hL (together_skipFirstNewline hL ht (by omega)) hs hr
  · rename_i rest hquotes
    obtain ⟨t, rfl, ht⟩ := cons_of_ne hliteral.symm h
    rw [readText]
    · exact together_of_readLiteral ht hs hr
    · exact no_pair hliteral.symm ht hquotes
  · cases hs

/-- A value without parts before the border is read from both texts. -/
theorem together_of_readScalar {v : Scalar} (h : L.Together s t)
    (hs : readScalar s = some (v, r)) (hr : L.gap ≤ r.length) :
    ∃ r', readScalar t = some (v, r') ∧ L.Together r r' := by
  have hword : ∀ {c s t letters} {v' : Scalar}, L.Together (c :: s) (c :: t) → c ≠ '\n' →
      '\n' ∉ letters → (readWord letters s).map (v', ·) = some (v, r) →
      ∃ r', (readWord letters t).map (v', ·) = some (v, r') ∧ L.Together r r' := by
    intro c s t letters v' h hc hl hs
    obtain ⟨_, heq, ht⟩ := cons_of_ne (by rwa [hL]) h
    obtain rfl := (List.cons.inj heq).2
    have hw := rel_readWord hL hl ht
    grind [Option.Rel]
  have hnumber := rel_readNumber hL h
  have hmoment := rel_readMoment hL h
  rcases L.uncons h with ⟨rfl, rfl⟩ | ⟨c, s, t, rfl, rfl, -⟩
  · cases hs
  rw [readScalar] at hs ⊢
  split at hs
  · obtain ⟨⟨text, _⟩, hread, heq⟩ := Option.map_eq_some_iff.1 hs
    cases heq
    obtain ⟨r', hread', hr'⟩ := together_of_readText hL h hread hr
    exact ⟨r', by rw [if_pos ‹_›, hread']; rfl, hr'⟩
  split at hs
  · grind [Option.Rel]
  split at hs
  · subst_vars
    exact hword h (by decide) (by decide) hs
  split at hs
  · subst_vars
    exact hword h (by decide) (by decide) hs
  split at hs
  · grind [Option.Rel]
  · cases hs

end Line

end Lockstep
end BrokerAgent.Toml
