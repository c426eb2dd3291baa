import BrokerAgent.Proofs.Json.Texts

/-!
# What is read was written that way

The converse of reading what is written. Whatever text the reader gives was spelled up to the quote
that it stopped behind (`spells_of_readText`), so a reader of quoted texts takes nothing but
spellings of them. It goes reader by reader, from four hexadecimal digits to the whole text.
-/

namespace BrokerAgent.Json

/-! ## Blanks and words -/

theorem blank_of_isSpace {b : List Char} (h : ∀ c ∈ b, isSpace c = true) : Blank b := by
  intro c hc
  have hspace := h c hc
  simp only [isSpace, Bool.or_eq_true, decide_eq_true_eq] at hspace
  rcases hspace with ((h | h) | h) | h
  · exact .inl h
  · exact .inr (.inr (.inl h))
  · exact .inr (.inl h)
  · exact .inr (.inr (.inr h))

/-- What is passed over as blank is blank. -/
theorem exists_blank (s : List Char) : ∃ b, Blank b ∧ s = b ++ skipSpace s := by
  have hall : (s.takeWhile isSpace).all isSpace = true := List.all_takeWhile
  exact ⟨s.takeWhile isSpace, blank_of_isSpace (List.all_eq_true.1 hall),
    List.takeWhile_append_dropWhile.symm⟩

/-- A word is read letter by letter. -/
theorem eq_of_readWord {letters s rest : List Char} (h : readWord letters s = .ok rest) :
    s = letters ++ rest := by
  fun_induction readWord letters s with
  | case1 s =>
    cases h
    rfl
  | case2 => cases h
  | case3 letter letters s ih => rw [ih h, List.cons_append]
  | case4 => cases h

/-! ## Numbers of four digits -/

theorem toLower_digit : ∀ k < 10, (Char.ofNat (48 + k)).toLower = k.digitChar := by decide

theorem toLower_small : ∀ k < 6, (Char.ofNat (97 + k)).toLower = (k + 10).digitChar := by decide

theorem toLower_capital : ∀ k < 6, (Char.ofNat (65 + k)).toLower = (k + 10).digitChar := by decide

theorem ofNat_above {c : Char} {base : Nat} (h : base ≤ c.toNat) :
    Char.ofNat (base + (c.toNat - base)) = c := by
  rw [Nat.add_sub_cancel' h, Char.ofNat_toNat]

/-- A hexadecimal digit is below sixteen, and in lower case the digit of its value. -/
theorem toLower_of_hexDigit? {c : Char} {k : Nat} (h : Text.hexDigit? c = some k) :
    k < 16 ∧ c.toLower = k.digitChar := by
  unfold Text.hexDigit? at h
  split at h
  · rename_i hc
    cases h
    have hbounds : 48 ≤ c.toNat ∧ c.toNat ≤ 57 := by
      simpa [Char.isDigit, UInt32.le_iff_toNat_le] using hc
    have hlower := toLower_digit (c.toNat - 48) (by omega)
    rw [ofNat_above hbounds.1] at hlower
    exact ⟨show c.toNat - 48 < 16 by omega, hlower⟩
  split at h
  · rename_i hc
    cases h
    have hlow : 97 ≤ c.toNat := hc.1
    have hhigh : c.toNat ≤ 102 := hc.2
    have hlower := toLower_small (c.toNat - 97) (by omega)
    rw [ofNat_above hlow] at hlower
    exact ⟨show c.toNat - 97 + 10 < 16 by omega, hlower⟩
  split at h
  · rename_i hc
    cases h
    have hlow : 65 ≤ c.toNat := hc.1
    have hhigh : c.toNat ≤ 70 := hc.2
    have hlower := toLower_capital (c.toNat - 65) (by omega)
    rw [ofNat_above hlow] at hlower
    exact ⟨show c.toNat - 65 + 10 < 16 by omega, hlower⟩
  · cases h

/-- Four hexadecimal digits spell the code unit that they give. -/
theorem spellsUnit_of_hexUnit? {a b c d : Char} {n : Nat} (h : hexUnit? a b c d = some n) :
    SpellsUnit n [a, b, c, d] := by
  simp only [hexUnit?, Option.bind_eq_bind, Option.bind_eq_some_iff, Option.pure_def,
    Option.some.injEq] at h
  obtain ⟨na, ha, nb, hb, nc, hc, nd, hd, rfl⟩ := h
  obtain ⟨hna, ha⟩ := toLower_of_hexDigit? ha
  obtain ⟨hnb, hb⟩ := toLower_of_hexDigit? hb
  obtain ⟨hnc, hc⟩ := toLower_of_hexDigit? hc
  obtain ⟨hnd, hd⟩ := toLower_of_hexDigit? hd
  have h₁ : (((na * 16 + nb) * 16 + nc) * 16 + nd) / 4096 = na := by omega
  have h₂ : (((na * 16 + nb) * 16 + nc) * 16 + nd) / 256 % 16 = nb := by omega
  have h₃ : (((na * 16 + nb) * 16 + nc) * 16 + nd) / 16 % 16 = nc := by omega
  have h₄ : (((na * 16 + nb) * 16 + nc) * 16 + nd) % 16 = nd := by omega
  refine ⟨by omega, ?_⟩
  simp only [unitDigits, List.map_cons, List.map_nil, h₁, h₂, h₃, h₄, ha, hb, hc, hd]

/-- A code unit that is read has been spelled. -/
theorem spellsUnit_of_readUnit {s rest : List Char} {n : Nat} (h : readUnit s = .ok (n, rest)) :
    ∃ digits, SpellsUnit n digits ∧ s = digits ++ rest := by
  obtain ⟨a, b, c, d, rfl, hunit⟩ := readUnit_eq_ok h
  exact ⟨[a, b, c, d], spellsUnit_of_hexUnit? hunit, rfl⟩

/-! ## One character -/

/-- The short escapes that are read are the ones in the table. -/
theorem mem_of_shortEscape? {l c : Char} (h : shortEscape? l = some c) :
    (l, c) ∈ letterEscapes := by
  unfold shortEscape? at h
  split at h <;> cases h <;> decide

/-- The number of a character that has one. -/
theorem toNat_ofNat {n : Nat} (h : n.isValidChar) : (Char.ofNat n).toNat = n := by
  unfold Char.ofNat
  rw [dif_pos h]
  rfl

/-- A unit that is no half of a pair spells the character of its number. -/
theorem spellsChar_unit {n : Nat} {digits : List Char} (h : SpellsUnit n digits)
    (htrailing : isTrailing n = false) (hleading : isLeading n = false) :
    SpellsChar (Char.ofNat n) ('\\' :: 'u' :: digits) := by
  simp only [isTrailing, isLeading, Bool.and_eq_false_iff, decide_eq_false_iff_not]
    at htrailing hleading
  have hlt := h.1
  have hn : (Char.ofNat n).toNat = n := toNat_ofNat (by unfold Nat.isValidChar; omega)
  exact .unit (hn.symm ▸ h)

/-- Two halves spell the character of their pair. -/
theorem spellsChar_pair {high low : Nat} {first second : List Char} (hfirst : SpellsUnit high first)
    (hsecond : SpellsUnit low second) (hleading : isLeading high = true)
    (htrailing : isTrailing low = true) :
    SpellsChar (Char.ofNat (0x10000 + (high - 0xD800) * 0x400 + (low - 0xDC00)))
      ('\\' :: 'u' :: first ++ '\\' :: 'u' :: second) := by
  simp only [isTrailing, isLeading, Bool.and_eq_true, decide_eq_true_eq] at htrailing hleading
  have hn : (Char.ofNat (0x10000 + (high - 0xD800) * 0x400 + (low - 0xDC00))).toNat =
      0x10000 + (high - 0xD800) * 0x400 + (low - 0xDC00) :=
    toNat_ofNat (by unfold Nat.isValidChar; omega)
  have hhigh : 0xD800 + (0x10000 + (high - 0xD800) * 0x400 + (low - 0xDC00) - 0x10000) / 0x400 =
      high := by omega
  have hlow : 0xDC00 + (0x10000 + (high - 0xD800) * 0x400 + (low - 0xDC00) - 0x10000) % 0x400 =
      low := by omega
  refine .pair ?_ ?_ ?_
  · rw [hn]
    omega
  · rwa [hn, hhigh]
  · rwa [hn, hlow]

/-- A pair is read off its second half, with the backslash in front. -/
theorem readPair_eq_ok {leading : Nat} {s rest : List Char} {c : Char}
    (h : readPair leading s = .ok (c, rest)) :
    ∃ trailing digits, SpellsUnit trailing digits ∧ isTrailing trailing = true ∧
      s = '\\' :: 'u' :: digits ++ rest ∧
      c = Char.ofNat (0x10000 + (leading - 0xD800) * 0x400 + (trailing - 0xDC00)) := by
  unfold readPair at h
  split at h
  · cases h
  · cases h
  · split at h
    · cases h
    · rename_i hunit
      split at h
      · rename_i htrailing
        simp only [Except.ok.injEq, Prod.mk.injEq] at h
        obtain ⟨rfl, rfl⟩ := h
        obtain ⟨digits, hdigits, rfl⟩ := spellsUnit_of_readUnit hunit
        exact ⟨_, digits, hdigits, htrailing, rfl, rfl⟩
      · cases h
  · cases h
  · cases h

/-- An escape that is read spells its character. -/
theorem spellsChar_of_readEscape {s rest : List Char} {c : Char}
    (h : readEscape s = .ok (c, rest)) :
    ∃ spelling, SpellsChar c ('\\' :: spelling) ∧ s = spelling ++ rest := by
  unfold readEscape at h
  split at h
  · cases h
  · split at h
    · cases h
    · rename_i n after hunit
      obtain ⟨digits, hdigits, rfl⟩ := spellsUnit_of_readUnit hunit
      split at h
      · cases h
      split at h
      · rename_i hleading
        obtain ⟨trailing, low, hlow, htrailing, rfl, hc⟩ := readPair_eq_ok h
        refine ⟨'u' :: digits ++ '\\' :: 'u' :: low, ?_, by simp⟩
        rw [hc]
        exact spellsChar_pair hdigits hlow hleading htrailing
      · rename_i htrailing hleading
        simp only [Except.ok.injEq, Prod.mk.injEq] at h
        obtain ⟨rfl, rfl⟩ := h
        rw [Bool.not_eq_true] at htrailing hleading
        exact ⟨_, spellsChar_unit hdigits htrailing hleading, rfl⟩
  · split at h
    · rename_i hshort
      cases h
      exact ⟨_, .letter (mem_of_shortEscape? hshort), rfl⟩
    · cases h

/-! ## A whole text -/

/-- What is read as a text was spelled up to the closing quote. -/
theorem spells_of_readText {s rest text : List Char} (h : readText s = .ok (text, rest)) :
    ∃ spelling, Spells text spelling ∧ s = spelling ++ '"' :: rest := by
  fun_induction readText s generalizing text with
  | case1 => cases h
  | case2 rest =>
    cases h
    exact ⟨[], .nil, rfl⟩
  | case3 => cases h
  | case4 => cases h
  | case5 after d left hescape later behind hlater _ ih =>
    cases h
    obtain ⟨first, hfirst, rfl⟩ := spellsChar_of_readEscape hescape
    obtain ⟨spelling, hspelling, rfl⟩ := ih hlater
    exact ⟨'\\' :: first ++ spelling, .cons hfirst hspelling, by simp⟩
  | case6 => cases h
  | case7 => cases h
  | case8 c rest hquote hslash hlow later behind hlater ih =>
    cases h
    obtain ⟨spelling, hspelling, rfl⟩ := ih hlater
    exact ⟨[c] ++ spelling, .cons (.raw (Char.not_lt.1 hlow) hquote hslash) hspelling, rfl⟩

end BrokerAgent.Json
