import BrokerAgent.Json.Text
import BrokerAgent.Proofs.Json.Grammar

/-!
# Blanks and quoted texts are read as they are written

Blanks are passed over. Whatever way a text is spelled in, reading it gives the text
(`readText_spelled`) and passing over it ends at the same place (`skipText_spelled`). Both are
inductions over the characters, with one lemma for each way of spelling a single one.
-/

namespace BrokerAgent.Json

/-! ## Blanks -/

theorem isSpace_of_blank {b : List Char} (hb : Blank b) : ∀ c ∈ b, isSpace c = true := by
  intro c hc
  rcases hb c hc with rfl | rfl | rfl | rfl <;> decide

/-- Blanks are passed over. -/
theorem skipSpace_append {b : List Char} (hb : Blank b) (s : List Char) :
    skipSpace (b ++ s) = skipSpace s := by
  induction b with
  | nil => rfl
  | cons c b ih =>
    have hc : isSpace c = true := isSpace_of_blank hb c List.mem_cons_self
    have ht : Blank b := fun d hd => hb d (List.mem_cons_of_mem c hd)
    rw [List.cons_append, skipSpace, List.dropWhile_cons_of_pos hc]
    exact ih ht

/-- A character that is no blank is not passed over. -/
theorem skipSpace_cons {c : Char} (hc : isSpace c = false) (s : List Char) :
    skipSpace (c :: s) = c :: s :=
  List.dropWhile_cons_of_neg (by rw [hc]; decide)

/-- Blanks end at the first character that is none. -/
theorem skipSpace_blank_cons {b : List Char} (hb : Blank b) {c : Char} (hc : isSpace c = false)
    (s : List Char) : skipSpace (b ++ c :: s) = c :: s := by
  rw [skipSpace_append hb, skipSpace_cons hc]

/-! ## Numbers of four digits -/

/-- A letter in lower case is itself, or a capital comes 32 places before it. -/
theorem toLower_cases (d : Char) :
    d.toLower = d ∨ 65 ≤ d.toNat ∧ d.toLower.toNat = d.toNat + 32 := by
  unfold Char.toLower
  split
  · rename_i h
    right
    simp only [ge_iff_le, UInt32.le_iff_toNat_le] at h
    have h₁ : 65 ≤ d.val.toNat := h.1
    have h₂ : d.val.toNat ≤ 90 := h.2
    refine ⟨h₁, ?_⟩
    show (d.val + ('a'.val - 'A'.val)).toNat = d.val.toNat + 32
    rw [UInt32.toNat_add, show ('a'.val - 'A'.val).toNat = 32 from rfl]
    omega
  · exact .inl rfl

/-- The sixteen digits in small letters have their values. -/
theorem hexDigit?_digitChar : ∀ k < 16, Text.hexDigit? k.digitChar = some k := by decide

theorem hexDigit?_capital : ∀ k < 16, 65 ≤ k.digitChar.toNat - 32 →
    Text.hexDigit? (Char.ofNat (k.digitChar.toNat - 32)) = some k := by decide

/-- A hexadecimal digit may be written in either case. -/
theorem hexDigit?_of_toLower {d : Char} {k : Nat} (hk : k < 16) (h : d.toLower = k.digitChar) :
    Text.hexDigit? d = some k := by
  rcases toLower_cases d with hd | ⟨hd, hn⟩
  · rw [← hd, h, hexDigit?_digitChar k hk]
  · have hc : d = Char.ofNat (k.digitChar.toNat - 32) := by
      rw [← h, hn, Nat.add_sub_cancel, Char.ofNat_toNat]
    have hl : 65 ≤ k.digitChar.toNat - 32 := by rw [← h, hn]; omega
    rw [hc, hexDigit?_capital k hk hl]

theorem four_le_size (a b c d : Char) : 4 ≤ Utf8.size [a, b, c, d] := by
  have ha := a.utf8Size_pos
  have hb := b.utf8Size_pos
  have hc := c.utf8Size_pos
  have hd := d.utf8Size_pos
  simp only [Utf8.size]
  omega

/-- Four digits are read as the number that they spell. -/
theorem readUnit_spelled {n : Nat} {digits : List Char} (h : SpellsUnit n digits)
    (rest : List Char) : readUnit (digits ++ rest) = .ok (n, rest) := by
  obtain ⟨hn, hd⟩ := h
  obtain ⟨a, l₁, rfl, ha, hd⟩ := List.map_eq_cons_iff.1 hd
  obtain ⟨b, l₂, rfl, hb, hd⟩ := List.map_eq_cons_iff.1 hd
  obtain ⟨c, l₃, rfl, hc, hd⟩ := List.map_eq_cons_iff.1 hd
  obtain ⟨d, l₄, rfl, hd', hd⟩ := List.map_eq_cons_iff.1 hd
  obtain rfl : l₄ = [] := List.map_eq_nil_iff.1 hd
  have hsize : ¬ Utf8.size ((a :: b :: c :: d :: rest).take 4) < 4 :=
    Nat.not_lt.2 (four_le_size a b c d)
  have hunit : hexUnit? a b c d = some n := by
    unfold hexUnit?
    rw [hexDigit?_of_toLower (by omega) ha, hexDigit?_of_toLower (by omega) hb,
      hexDigit?_of_toLower (by omega) hc, hexDigit?_of_toLower (by omega) hd']
    simp only [Option.bind_eq_bind, Option.bind_some, Option.pure_def, Option.some.injEq]
    omega
  simp only [List.cons_append, List.nil_append, readUnit, if_neg hsize, hunit]

/-- A number is read off four characters. -/
theorem readUnit_eq_ok {s rest : List Char} {n : Nat} (h : readUnit s = .ok (n, rest)) :
    ∃ a b c d, s = [a, b, c, d] ++ rest ∧ hexUnit? a b c d = some n := by
  unfold readUnit at h
  split at h
  · cases h
  split at h
  · split at h
    · cases h
      exact ⟨_, _, _, _, rfl, ‹_›⟩
    · cases h
  · cases h

/-! ## One character -/

/-- The short escapes of the table are the ones that are read. -/
theorem shortEscape?_of_mem {l c : Char} (h : (l, c) ∈ letterEscapes) :
    l ≠ 'u' ∧ shortEscape? l = some c := by
  simp only [letterEscapes, List.mem_cons, Prod.mk.injEq, List.not_mem_nil, or_false] at h
  rcases h with ⟨rfl, rfl⟩ | ⟨rfl, rfl⟩ | ⟨rfl, rfl⟩ | ⟨rfl, rfl⟩ | ⟨rfl, rfl⟩ | ⟨rfl, rfl⟩ |
    ⟨rfl, rfl⟩ | ⟨rfl, rfl⟩ <;> decide

/-- No character has the number of half a pair. -/
theorem not_half (c : Char) : isTrailing c.toNat = false ∧ isLeading c.toNat = false := by
  have hv := c.valid
  have hn : c.val.toNat = c.toNat := rfl
  simp only [UInt32.isValidChar, Nat.isValidChar, hn] at hv
  simp only [isTrailing, isLeading, Bool.and_eq_false_iff, decide_eq_false_iff_not]
  omega

/-- A short escape is read as its character. -/
theorem readEscape_letter {l c : Char} (h : (l, c) ∈ letterEscapes) (rest : List Char) :
    readEscape (l :: rest) = .ok (c, rest) := by
  obtain ⟨hu, hc⟩ := shortEscape?_of_mem h
  unfold readEscape
  split
  · contradiction
  · simp_all
  · rename_i heq
    obtain ⟨rfl, rfl⟩ := List.cons.inj heq
    rw [hc]

/-- A code unit is read as its character. -/
theorem readEscape_unit {c : Char} {digits : List Char} (h : SpellsUnit c.toNat digits)
    (rest : List Char) : readEscape ('u' :: digits ++ rest) = .ok (c, rest) := by
  obtain ⟨ht, hl⟩ := not_half c
  simp only [List.cons_append, readEscape, readUnit_spelled h, ht, hl, Char.ofNat_toNat,
    Bool.false_eq_true, if_false]

/-- A pair of code units is read as the one character that it spells. -/
theorem readEscape_pair {c : Char} {high low : List Char} (hc : 0x10000 ≤ c.toNat)
    (hhigh : SpellsUnit (0xD800 + (c.toNat - 0x10000) / 0x400) high)
    (hlow : SpellsUnit (0xDC00 + (c.toNat - 0x10000) % 0x400) low) (rest : List Char) :
    readEscape ('u' :: high ++ '\\' :: 'u' :: low ++ rest) = .ok (c, rest) := by
  have hlt := c.valid
  have hn : c.val.toNat = c.toNat := rfl
  simp only [UInt32.isValidChar, Nat.isValidChar, hn] at hlt
  have h₁ : isTrailing (0xD800 + (c.toNat - 0x10000) / 0x400) = false := by
    simp only [isTrailing, Bool.and_eq_false_iff, decide_eq_false_iff_not]
    omega
  have h₂ : isLeading (0xD800 + (c.toNat - 0x10000) / 0x400) = true := by
    simp only [isLeading, Bool.and_eq_true, decide_eq_true_eq]
    omega
  have h₃ : isTrailing (0xDC00 + (c.toNat - 0x10000) % 0x400) = true := by
    simp only [isTrailing, Bool.and_eq_true, decide_eq_true_eq]
    omega
  have hv : 0x10000 + (0xD800 + (c.toNat - 0x10000) / 0x400 - 0xD800) * 0x400 +
      (0xDC00 + (c.toNat - 0x10000) % 0x400 - 0xDC00) = c.toNat := by omega
  simp only [List.cons_append, List.append_assoc, readEscape, readUnit_spelled hhigh, h₁, h₂,
    readPair, readUnit_spelled hlow, h₃, hv, Char.ofNat_toNat, Bool.false_eq_true, if_false,
    if_true]

/-! ## Reading a text -/

/-- A quote ends a text. -/
theorem readText_quote (rest : List Char) : readText ('"' :: rest) = .ok ([], rest) := by
  rw [readText, if_pos rfl]

/-- A character that needs no escape stands for itself. -/
theorem readText_raw {c : Char} (hlow : ' ' ≤ c) (hquote : c ≠ '"') (hslash : c ≠ '\\')
    (rest : List Char) : readText (c :: rest) = (readText rest).mapValue (c :: ·) := by
  rw [readText, if_neg hquote, if_neg hslash, if_neg (Char.not_lt.2 hlow), Reading.mapValue.eq_def]
  split <;> simp_all

/-- An escape stands for its character. -/
theorem readText_escape {c : Char} {s rest : List Char} (h : readEscape s = .ok (c, rest)) :
    readText ('\\' :: s) = (readText rest).mapValue (c :: ·) := by
  rw [readText, if_neg (by decide), if_pos rfl, Reading.mapValue.eq_def]
  split
  · simp_all
  · rename_i heq
    obtain ⟨rfl, rfl⟩ : c = _ ∧ rest = _ := by simpa [h] using heq
    split <;> simp_all

/-- A character is read in each of its spellings. -/
theorem readText_spelledChar {c : Char} {s : List Char} (h : SpellsChar c s) (rest : List Char) :
    readText (s ++ rest) = (readText rest).mapValue (c :: ·) := by
  cases h with
  | raw hlow hquote hslash => exact readText_raw hlow hquote hslash rest
  | letter h => exact readText_escape (readEscape_letter h rest)
  | unit h => exact readText_escape (readEscape_unit h rest)
  | pair hc hhigh hlow =>
    have he := readEscape_pair hc hhigh hlow rest
    exact readText_escape he

/-- A text is read from every spelling of it, and reading stops behind the closing quote. -/
theorem readText_spelled {text spelling : List Char} (h : Spells text spelling)
    (rest : List Char) : readText (spelling ++ '"' :: rest) = .ok (text, rest) := by
  induction h with
  | nil => exact readText_quote rest
  | cons hc _ ih =>
    rw [List.append_assoc, readText_spelledChar hc, ih]
    rfl

/-! ## Passing over a text -/

theorem skipText_quote (rest : List Char) : skipText ('"' :: rest) = .ok rest := by
  rw [skipText, if_pos rfl]

theorem skipText_raw {c : Char} (hlow : ' ' ≤ c) (hquote : c ≠ '"') (hslash : c ≠ '\\')
    (rest : List Char) : skipText (c :: rest) = skipText rest := by
  rw [skipText, if_neg hquote, if_neg hslash, if_neg (Char.not_lt.2 hlow)]

theorem skipText_escape {s rest : List Char} (h : skipEscape s = .ok rest) :
    skipText ('\\' :: s) = skipText rest := by
  rw [skipText, if_neg (by decide), if_pos rfl]
  split <;> simp_all

theorem skipEscape_letter {l c : Char} (h : (l, c) ∈ letterEscapes) (rest : List Char) :
    skipEscape (l :: rest) = .ok rest := by
  obtain ⟨hu, hc⟩ := shortEscape?_of_mem h
  unfold skipEscape
  split
  · contradiction
  · simp_all
  · rename_i heq
    obtain ⟨rfl, rfl⟩ := List.cons.inj heq
    rw [hc, Option.isSome_some, if_pos rfl]

theorem skipEscape_unit {n : Nat} {digits : List Char} (h : SpellsUnit n digits)
    (rest : List Char) : skipEscape ('u' :: digits ++ rest) = .ok rest := by
  simp only [List.cons_append, skipEscape, readUnit_spelled h]

/-- A character is passed over in each of its spellings. -/
theorem skipText_spelledChar {c : Char} {s : List Char} (h : SpellsChar c s) (rest : List Char) :
    skipText (s ++ rest) = skipText rest := by
  cases h with
  | raw hlow hquote hslash => exact skipText_raw hlow hquote hslash rest
  | letter h => exact skipText_escape (skipEscape_letter h rest)
  | unit h => exact skipText_escape (skipEscape_unit h rest)
  | @pair high low _ hhigh hlow =>
    -- the halves are two escapes here: nobody looks whether they fit
    have h₁ := skipText_escape (skipEscape_unit hhigh ('\\' :: 'u' :: low ++ rest))
    have h₂ := skipText_escape (skipEscape_unit hlow rest)
    simp only [List.cons_append, List.append_assoc] at h₁ h₂ ⊢
    rw [h₁, h₂]

/-- Passing over a text ends behind the closing quote, whatever its spelling. -/
theorem skipText_spelled {text spelling : List Char} (h : Spells text spelling)
    (rest : List Char) : skipText (spelling ++ '"' :: rest) = .ok rest := by
  induction h with
  | nil => exact skipText_quote rest
  | cons hc _ ih => rw [List.append_assoc, skipText_spelledChar hc, ih]

end BrokerAgent.Json
