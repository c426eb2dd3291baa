import BrokerAgent.Proofs.Json.Texts
import BrokerAgent.Text.Quoted

/-!
# Quoted texts can be told apart

A form is `Unambiguous` if what is written shows which value it stands for and where it ends,
whatever stands behind it. Forms with that property can be put one behind the other, and repeated up
to a mark that none of them begins with, so it goes from single characters (`unambiguous_quoteChar`,
for which there is a reader) to lists of texts (`unambiguous_quotedList`). None of these forms has a
control character in it, so each stays on its line.
-/

namespace BrokerAgent.Text

/-! ## Forms that tell where they end -/

/-- What is written cannot be taken for another value, whatever follows it. -/
def Unambiguous {α : Type} (form : α → List Char) : Prop :=
  ∀ a b rest rest', form a ++ rest = form b ++ rest' → a = b ∧ rest = rest'

namespace Unambiguous

variable {α β : Type} {form : α → List Char}

/-- A form that ends where it ends tells what it is of. -/
theorem injective (h : Unambiguous form) {a b : α} (hab : form a = form b) : a = b :=
  (h a b [] [] (by rw [hab])).1

/-- A form stays unambiguous behind a map that loses nothing. -/
theorem comp (h : Unambiguous form) {f : β → α} (hf : ∀ x y, f x = f y → x = y) :
    Unambiguous fun x => form (f x) := by
  intro x y rest rest' hxy
  obtain ⟨hf', hrest⟩ := h _ _ _ _ hxy
  exact ⟨hf x y hf', hrest⟩

/-- Signs around a form leave it unambiguous. -/
theorem between (h : Unambiguous form) (before after : List Char) :
    Unambiguous fun a => before ++ form a ++ after := by
  intro a b rest rest' hab
  simp only [List.append_assoc] at hab
  obtain ⟨rfl, hrest⟩ := h _ _ _ _ (List.append_cancel_left hab)
  exact ⟨rfl, List.append_cancel_left hrest⟩

/-- Rows of values are written differently if each value takes some room. -/
theorem flatMap_injective (h : Unambiguous form) (hform : ∀ a, form a ≠ []) {as bs : List α}
    (hab : as.flatMap form = bs.flatMap form) : as = bs := by
  induction as generalizing bs with
  | nil =>
    cases bs with
    | nil => rfl
    | cons b bs => exact absurd (List.append_eq_nil_iff.1 hab.symm).1 (hform b)
  | cons a as ih =>
    cases bs with
    | nil => exact absurd (List.append_eq_nil_iff.1 hab).1 (hform a)
    | cons b bs =>
      obtain ⟨rfl, hlater⟩ := h _ _ _ _ hab
      rw [ih hlater]

/-- A row of values is unambiguous with a mark at its end that is not the beginning of a value. -/
theorem row (h : Unambiguous form) {mark : List Char}
    (hmark : ∀ a rest rest', mark ++ rest ≠ form a ++ rest') :
    Unambiguous fun as : List α => as.flatMap form ++ mark := by
  intro as bs
  induction as generalizing bs with
  | nil =>
    intro rest rest' hab
    cases bs with
    | nil => exact ⟨rfl, List.append_cancel_left hab⟩
    | cons b bs =>
      simp only [List.flatMap_cons, List.append_assoc] at hab
      exact absurd hab (hmark b _ _)
  | cons a as ih =>
    intro rest rest' hab
    cases bs with
    | nil =>
      simp only [List.flatMap_cons, List.append_assoc] at hab
      exact absurd hab.symm (hmark a _ _)
    | cons b bs =>
      simp only [List.flatMap_cons, List.append_assoc] at hab
      obtain ⟨rfl, hlater⟩ := h _ _ _ _ hab
      obtain ⟨rfl, hrest⟩ := ih bs rest rest' (by simpa only [List.append_assoc] using hlater)
      exact ⟨rfl, hrest⟩

end Unambiguous

/-! ## Numbers of characters -/

/-- The last digit of a number stands apart. -/
theorem toDigits_succ_of_le {n : Nat} (h : 16 ≤ n) :
    Nat.toDigits 16 n = Nat.toDigits 16 (n / 16) ++ [(n % 16).digitChar] := by
  rw [Nat.toDigits_eq_if (by decide), if_neg (by omega)]

/-- A small number is one digit. -/
theorem toDigits_of_lt {n : Nat} (h : n < 16) : Nat.toDigits 16 n = [n.digitChar] := by
  rw [Nat.toDigits_eq_if (by decide), if_pos h]

/-- The digits of a number spell it. -/
theorem numeral_toDigits (n : Nat) : numeral 16 (Nat.toDigits 16 n) = n := by
  induction n using Nat.strongRecOn with
  | ind n ih =>
    by_cases h : n < 16
    · rw [toDigits_of_lt h]
      simp only [numeral, List.foldl_cons, List.foldl_nil, Json.hexDigit?_digitChar n h,
        Option.getD_some]
      omega
    · have hlower := ih (n / 16) (by omega)
      have hdigit := Json.hexDigit?_digitChar (n % 16) (by omega)
      rw [toDigits_succ_of_le (by omega), numeral, List.foldl_append, ← numeral, hlower]
      simp only [List.foldl_cons, List.foldl_nil, hdigit, Option.getD_some]
      omega

theorem exists_of_mem_toDigits {n : Nat} {c : Char} (h : c ∈ Nat.toDigits 16 n) :
    ∃ k < 16, c = k.digitChar := by
  induction n using Nat.strongRecOn with
  | ind n ih =>
    by_cases hn : n < 16
    · rw [toDigits_of_lt hn] at h
      exact ⟨n, hn, List.mem_singleton.1 h⟩
    · rw [toDigits_succ_of_le (by omega), List.mem_append] at h
      rcases h with h | h
      · exact ih (n / 16) (by omega) h
      · exact ⟨n % 16, by omega, List.mem_singleton.1 h⟩

/-- No digit is a brace or a control character. -/
theorem digitChar_plain : ∀ k < 16, k.digitChar ≠ '\x7d' ∧ isControl k.digitChar = false := by
  decide

/-! ## One character -/

/-- The short forms, with the characters that they stand for. -/
def shortForms : List (Char × Char) :=
  [('0', '\x00'), ('t', '\t'), ('r', '\r'), ('n', '\n'), ('"', '"'), ('\\', '\\')]

/-- A character has a short form, or stands for itself, or is written by its number. -/
theorem quoteChar_cases (c : Char) :
    (∃ letter, (letter, c) ∈ shortForms ∧ quoteChar c = ['\\', letter]) ∨
      (c ≠ '\\' ∧ prints c = true ∧ quoteChar c = [c]) ∨ quoteChar c = numbered c := by
  by_cases hshort : c ∈ shortForms.map Prod.snd
  · left
    simp only [shortForms, List.map_cons, List.map_nil, List.mem_cons, List.not_mem_nil,
      or_false] at hshort
    rcases hshort with rfl | rfl | rfl | rfl | rfl | rfl
    all_goals
      refine ⟨_, ?_, rfl⟩
      simp [shortForms]
  · right
    simp only [shortForms, List.map_cons, List.map_nil, List.mem_cons, List.not_mem_nil, or_false,
      not_or] at hshort
    obtain ⟨hnull, htab, hreturn, hline, hquote, hslash⟩ := hshort
    rw [quoteChar, if_neg hnull, if_neg htab, if_neg hreturn, if_neg hline, if_neg hquote,
      if_neg hslash]
    split
    · exact .inl ⟨hslash, ‹_›, rfl⟩
    · exact .inr rfl

/-- Reads one character of a quoted text, and gives what follows it. -/
def readQuoted : List Char → Option (Char × List Char)
  | [] => none
  | c :: s =>
    if c = '\\' then
      match s with
      | [] => none
      | d :: s =>
        if d = 'u' then
          let digits := s.drop 1
          some (Char.ofNat (numeral 16 (digits.takeWhile (· ≠ '\x7d'))),
            (digits.dropWhile (· ≠ '\x7d')).drop 1)
        else (shortForms.find? fun p => p.1 = d).map fun p => (p.2, s)
    else some (c, s)

/-- A character given by its number is read back. -/
theorem readQuoted_numbered (c : Char) (rest : List Char) :
    readQuoted (numbered c ++ rest) = some (c, rest) := by
  have hdigits : ∀ d ∈ Nat.toDigits 16 c.toNat, decide (d ≠ '\x7d') = true := by
    intro d hd
    obtain ⟨k, hk, rfl⟩ := exists_of_mem_toDigits hd
    exact decide_eq_true (digitChar_plain k hk).1
  simp only [numbered, List.append_assoc, List.cons_append, List.nil_append, readQuoted, if_true,
    List.drop_succ_cons, List.drop_zero]
  rw [List.takeWhile_append_of_pos hdigits, List.dropWhile_append_of_pos hdigits]
  simp [numeral_toDigits]

/-- Every quoted character is read back. -/
theorem readQuoted_quoteChar (c : Char) (rest : List Char) :
    readQuoted (quoteChar c ++ rest) = some (c, rest) := by
  rcases quoteChar_cases c with ⟨letter, hmem, h⟩ | ⟨hslash, -, h⟩ | h
  · have hshort : ∀ p ∈ shortForms, p.1 ≠ 'u' ∧ shortForms.find? (·.1 = p.1) = some p := by
      simp [shortForms]
    obtain ⟨hu, hfind⟩ := hshort _ hmem
    rw [h]
    simp only [List.cons_append, List.nil_append, readQuoted, if_true, if_neg hu, hfind,
      Option.map_some]
  · rw [h]
    exact if_neg hslash
  · rw [h]
    exact readQuoted_numbered c rest

/-- A quoted character ends where it ends. -/
theorem unambiguous_quoteChar : Unambiguous quoteChar := by
  intro a b rest rest' hab
  have hread := readQuoted_quoteChar a rest
  rw [hab, readQuoted_quoteChar] at hread
  obtain ⟨rfl, rfl⟩ := Prod.mk.inj (Option.some.inj hread)
  exact ⟨rfl, rfl⟩

/-- No character is written with a quote in front, so a quote is the end of a text. -/
theorem quote_ne_quoteChar (c : Char) (rest rest' : List Char) :
    ['"'] ++ rest ≠ quoteChar c ++ rest' := by
  intro h
  have hread := readQuoted_quoteChar c rest'
  rw [← h] at hread
  obtain rfl : '"' = c := (Prod.mk.inj (Option.some.inj hread)).1
  exact absurd (List.cons.inj h).1 (by decide)

/-! ## Texts and lists -/

theorem unambiguous_quoted : Unambiguous quoted := by
  have h := (unambiguous_quoteChar.row quote_ne_quoteChar).between ['"'] []
  simp only [List.append_nil] at h
  exact h

/-- Separators stand before all parts but the first. -/
theorem intercalate_cons (separator s : List Char) (l : List (List Char)) :
    separator.intercalate (s :: l) = s ++ l.flatMap (separator ++ ·) := by
  induction l generalizing s with
  | nil => simp
  | cons t l ih =>
    rw [List.intercalate_cons_cons, ih, List.flatMap_cons, List.append_assoc, List.append_assoc]

/-- The items behind the first one, and the closing bracket. -/
def moreQuoted (items : List (List Char)) : List Char :=
  items.flatMap ([',', ' '] ++ quoted ·) ++ [']']

/-- A list is its first text and more behind it. -/
theorem quotedList_cons (item : List Char) (items : List (List Char)) :
    quotedList (item :: items) = '[' :: quoted item ++ moreQuoted items := by
  rw [quotedList, List.map_cons, intercalate_cons, List.flatMap_map, moreQuoted]
  simp only [List.cons_append, List.append_assoc]

/-- The texts behind the first end where they end. -/
theorem unambiguous_moreQuoted : Unambiguous moreQuoted := by
  have hmark : ∀ item rest rest',
      [']'] ++ rest ≠ [',', ' '] ++ quoted item ++ [] ++ rest' := by simp
  have h := (unambiguous_quoted.between [',', ' '] []).row hmark
  simp only [List.append_nil] at h
  exact h

theorem unambiguous_quotedList : Unambiguous quotedList := by
  rintro (_ | ⟨a, as⟩) (_ | ⟨b, bs⟩) rest rest' hab
  · exact ⟨rfl, List.append_cancel_left hab⟩
  -- the sign behind the bracket shows whether there is an item
  · rw [quotedList_cons] at hab
    exact absurd (List.cons.inj (List.cons.inj hab).2).1 (by decide)
  · rw [quotedList_cons] at hab
    exact absurd (List.cons.inj (List.cons.inj hab).2).1 (by decide)
  · simp only [quotedList_cons, List.cons_append, List.append_assoc] at hab
    obtain ⟨rfl, hlater⟩ := unambiguous_quoted _ _ _ _ (List.cons.inj hab).2
    obtain ⟨rfl, hrest⟩ := unambiguous_moreQuoted _ _ _ _ hlater
    exact ⟨rfl, hrest⟩

/-! ## No control characters -/

/-- Nothing that a terminal would act on, the end of a line included. -/
def NoControl (s : List Char) : Prop :=
  ∀ c ∈ s, isControl c = false

instance (s : List Char) : Decidable (NoControl s) :=
  decidable_of_iff (s.all (!isControl ·) = true) (by simp [NoControl])

/-- The printable characters of ASCII are no control characters. -/
theorem isControl_of_le {c : Char} (hlow : ' ' ≤ c) (hhigh : c ≤ '~') : isControl c = false := by
  have hlow : 0x20 ≤ c.toNat := UInt32.le_iff_toNat_le.1 hlow
  have hhigh : c.toNat ≤ 0x7E := UInt32.le_iff_toNat_le.1 hhigh
  simp only [isControl, Bool.or_eq_false_iff, Bool.and_eq_false_iff, decide_eq_false_iff_not]
  omega

theorem isControl_of_isDigit {c : Char} (h : c.isDigit = true) : isControl c = false := by
  simp only [Char.isDigit, Bool.and_eq_true, decide_eq_true_eq] at h
  exact isControl_of_le (Char.le_trans (by decide) h.1) (Char.le_trans h.2 (by decide))

/-- Two texts without control characters have none together. -/
theorem noControl_append {s t : List Char} :
    NoControl (s ++ t) ↔ NoControl s ∧ NoControl t :=
  List.forall_mem_append

theorem NoControl.flatMap {α : Type} {form : α → List Char} (h : ∀ a, NoControl (form a))
    (as : List α) : NoControl (as.flatMap form) := by
  intro c hc
  obtain ⟨a, -, hc⟩ := List.mem_flatMap.1 hc
  exact h a c hc

/-- A line feed is a control character. -/
theorem NoControl.newline_not_mem {s : List Char} (h : NoControl s) : '\n' ∉ s := fun hmem => by
  cases h _ hmem

/-- A number in braces has no control characters. -/
theorem noControl_numbered (c : Char) : NoControl (numbered c) := by
  rw [numbered, noControl_append, noControl_append]
  refine ⟨⟨by decide, fun d hd => ?_⟩, by decide⟩
  obtain ⟨k, hk, rfl⟩ := exists_of_mem_toDigits hd
  exact (digitChar_plain k hk).2

/-- Quoting leaves no control character. -/
theorem noControl_quoteChar (c : Char) : NoControl (quoteChar c) := by
  rcases quoteChar_cases c with ⟨letter, hmem, h⟩ | ⟨-, hprints, h⟩ | h
  · have hshort : ∀ p ∈ shortForms, NoControl ['\\', p.1] := by
      simp only [shortForms, List.forall_mem_cons]
      decide
    rw [h]
    exact hshort _ hmem
  · rw [h]
    intro d hd
    obtain rfl := List.mem_singleton.1 hd
    cases hcontrol : isControl d with
    | false => rfl
    | true =>
      rw [prints_eq_false_of_isControl hcontrol] at hprints
      cases hprints
  · rw [h]
    exact noControl_numbered c

theorem noControl_quoted (text : List Char) : NoControl (quoted text) := by
  have htext := NoControl.flatMap noControl_quoteChar text
  exact noControl_append.2 ⟨noControl_append.2 ⟨(by decide : NoControl ['"']), htext⟩, by decide⟩

theorem noControl_quotedList (items : List (List Char)) : NoControl (quotedList items) := by
  cases items with
  | nil => decide
  | cons item items =>
    have hitem : ∀ item, NoControl ([',', ' '] ++ quoted item) := fun item =>
      noControl_append.2 ⟨by decide, noControl_quoted item⟩
    have hmore := noControl_append.2 ⟨NoControl.flatMap hitem items, (by decide : NoControl [']'])⟩
    have hfirst := noControl_append.2 ⟨(by decide : NoControl ['[']), noControl_quoted item⟩
    rw [quotedList_cons]
    exact noControl_append.2 ⟨hfirst, hmore⟩

end BrokerAgent.Text
