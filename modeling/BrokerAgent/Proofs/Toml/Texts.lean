import BrokerAgent.Proofs.Json.Texts
import BrokerAgent.Proofs.Toml.Grammar
import BrokerAgent.Toml.Scalar

/-!
# Blanks and texts of plain TOML are read as they are written

Blanks and comments are passed over up to the end of their line. A text that the writer of JSON has
escaped is read as it was, by one lemma for a single character and an induction over them. An empty
text is the one that needs care: its two quotes must not be followed by a third one.
-/

namespace BrokerAgent.Toml

/-! ## Blanks -/

theorem isBlank_of_blanks {b : List Char} (hb : Blanks b) : ∀ c ∈ b, isBlank c = true := by
  intro c hc
  rcases hb c hc with rfl | rfl <;> decide

/-- Blanks are passed over. -/
theorem skipBlanks_append {b : List Char} (hb : Blanks b) (s : List Char) :
    skipBlanks (b ++ s) = skipBlanks s :=
  List.dropWhile_append_of_pos (isBlank_of_blanks hb)

theorem skipBlanks_cons {c : Char} (hc : isBlank c = false) (s : List Char) :
    skipBlanks (c :: s) = c :: s :=
  List.dropWhile_cons_of_neg (by rw [hc]; decide)

/-- Blanks end at the first character that is none. -/
theorem skipBlanks_blanks_cons {b : List Char} (hb : Blanks b) {c : Char} (hc : isBlank c = false)
    (s : List Char) : skipBlanks (b ++ c :: s) = c :: s := by
  rw [skipBlanks_append hb, skipBlanks_cons hc]

theorem skipBlanks_blanks {b : List Char} (hb : Blanks b) : skipBlanks b = [] := by
  rw [← List.append_nil b, skipBlanks_append hb]
  rfl

/-- Blanks do not hide what a text begins with. -/
theorem head_blanks_append {b s : List Char} (hb : Blanks b) {d : Char} (hd : isBlank d = false)
    (hs : s.head? ≠ some d) : (b ++ s).head? ≠ some d := by
  cases b with
  | nil => exact hs
  | cons c b =>
    rintro h
    obtain rfl : c = d := Option.some.inj h
    rw [isBlank_of_blanks hb c List.mem_cons_self] at hd
    cases hd

/-- Inside a list, where line ends and comments may stand, blanks end at the first character that
begins neither. -/
theorem skipLines_blanks_cons {b : List Char} (hb : Blanks b) {c : Char}
    (hc : c ∉ [' ', '\t', '#', '\n', '\r']) (s : List Char) :
    skipLines false (b ++ c :: s) = c :: s := by
  simp only [List.mem_cons, List.not_mem_nil, or_false, not_or] at hc
  obtain ⟨hspace, htab, hhash, hline, hreturn⟩ := hc
  induction b with
  | nil =>
    rw [List.nil_append, skipLines]
    · simp only [isBlank, hspace, htab, hhash, decide_false, Bool.or_self, if_false,
        Bool.false_eq_true]
    · exact hline
    · exact fun rest h => absurd h hreturn
  | cons d b ih =>
    have hd : isBlank d = true := isBlank_of_blanks hb d List.mem_cons_self
    rw [List.cons_append, skipLines]
    · simp only [hd, if_true, if_false, Bool.false_eq_true]
      exact ih fun e he => hb e (List.mem_cons_of_mem d he)
    · rintro rfl
      cases hd
    · rintro rest rfl
      cases hd

/-! ## Single characters of a text -/

/-- A quote ends a text. -/
theorem readBasic_quote (s : List Char) : readBasic ('"' :: s) = some ([], s) := by
  rw [readBasic, if_pos rfl]

/-- A character that stands for itself. -/
theorem readBasic_raw {c : Char} (hquote : c ≠ '"') (hslash : c ≠ '\\')
    (hc : isTextChar c = true) (s : List Char) :
    readBasic (c :: s) = (readBasic s).map fun (text, after) => (c :: text, after) := by
  have hbasic : isBasicChar c = true := by
    simp only [isBasicChar, hc, hquote, hslash, ne_eq, not_false_eq_true,
      decide_true, Bool.and_true]
  rw [readBasic, if_neg hquote, if_neg hslash, if_pos hbasic]
  split <;> rename_i h <;> rw [h] <;> rfl

/-- A character with an escape. -/
theorem readBasic_escape {s rest : List Char} {c : Char} (h : readEscape s = some (c, rest)) :
    readBasic ('\\' :: s) = (readBasic rest).map fun (text, after) => (c :: text, after) := by
  rw [readBasic, if_neg (by decide), if_pos rfl]
  split
  · rename_i hnone
    rw [h] at hnone
    cases hnone
  · rename_i hsome
    rw [h] at hsome
    cases hsome
    split <;> rename_i h <;> rw [h] <;> rfl

/-- A control that is written by its number. -/
theorem readEscape_control {c : Char} (hc : c < ' ') (s : List Char) :
    readEscape ('u' :: '0' :: '0' :: Nat.digitChar (c.toNat / 16) ::
      Nat.digitChar (c.toNat % 16) :: s) = some (c, s) := by
  have hn : c.toNat < 32 := hc
  have hvalue : c.toNat / 16 * 16 + c.toNat % 16 = c.toNat := by omega
  have hread : readHex 0 4 ('0' :: '0' :: Nat.digitChar (c.toNat / 16) ::
      Nat.digitChar (c.toNat % 16) :: s) = some (c.toNat, s) := by
    simp only [readHex, Json.hexDigit?_digitChar _ (by omega : c.toNat / 16 < 16),
      Json.hexDigit?_digitChar _ (by omega : c.toNat % 16 < 16),
      (by decide : Text.hexDigit? '0' = some 0), Nat.zero_mul, Nat.zero_add, hvalue]
  have hvalid : c.toNat.isValidChar := c.valid
  rw [readEscape, readCodePoint, hread]
  simp only [if_pos hvalid, Char.ofNat_toNat]

/-- Every character but the delete character is read from its escape. -/
theorem readBasic_escapeChar {c : Char} (hc : c ≠ '\x7f') (s : List Char) :
    readBasic (Json.escapeChar c ++ s) =
      (readBasic s).map fun (text, after) => (c :: text, after) := by
  unfold Json.escapeChar
  -- one case for each line of the definition: seven letters, the other controls, the rest
  iterate 7
    split
    · subst c
      exact readBasic_escape rfl
  split
  · rename_i hlow
    exact readBasic_escape (readEscape_control hlow s)
  · rename_i hquote hslash _ _ _ _ _ hlow
    have htext : isTextChar c = true := by
      simp [isTextChar, Char.not_lt.1 hlow, hc]
    exact readBasic_raw hquote hslash htext s

/-! ## Whole texts -/

/-- A text is read up to its closing quote. -/
theorem readBasic_escaped {t : List Char} (ht : '\x7f' ∉ t) (rest : List Char) :
    readBasic (t.flatMap Json.escapeChar ++ '"' :: rest) = some (t, rest) := by
  induction t with
  | nil => exact readBasic_quote rest
  | cons c t ih =>
    have hc : c ≠ '\x7f' := fun h => ht (h ▸ List.mem_cons_self)
    have hmore : '\x7f' ∉ t := fun h => ht (List.mem_cons_of_mem c h)
    rw [List.flatMap_cons, List.append_assoc, readBasic_escapeChar hc, ih hmore]
    rfl

/-- No escape begins with a quote. -/
theorem escapeChar_head (c : Char) : ∃ d s, Json.escapeChar c = d :: s ∧ d ≠ '"' := by
  unfold Json.escapeChar
  iterate 8
    split
    · exact ⟨'\\', _, rfl, by decide⟩
  rename_i hquote _ _ _ _ _ _ _
  exact ⟨c, [], rfl, hquote⟩

/-- A text between quotes, with what follows it. -/
theorem writeText_append (t rest : List Char) :
    Json.writeText t ++ rest = '"' :: (t.flatMap Json.escapeChar ++ '"' :: rest) := by
  simp only [Json.writeText, List.cons_append, List.append_assoc, List.nil_append]

/-- A quoted text is read, unless it is empty and a third quote follows. -/
theorem readText_written {t : List Char} (ht : '\x7f' ∉ t) {rest : List Char}
    (hrest : rest.head? ≠ some '"') : readText (Json.writeText t ++ rest) = some (t, rest) := by
  rw [writeText_append, readText]
  · exact readBasic_escaped ht rest
  · intro more hmore
    cases t with
    | nil =>
      obtain ⟨-, hmore⟩ := List.cons.inj hmore
      rw [hmore] at hrest
      exact hrest rfl
    | cons c t =>
      obtain ⟨d, s, hd, hquote⟩ := escapeChar_head c
      rw [List.flatMap_cons, hd] at hmore
      exact hquote (List.cons.inj hmore).1

/-- A text as JSON writes it is read as that text. -/
theorem readScalar_written {t : List Char} (ht : '\x7f' ∉ t) {rest : List Char}
    (hrest : rest.head? ≠ some '"') :
    readScalar (Json.writeText t ++ rest) = some (.text t, rest) := by
  have hread := readText_written ht hrest
  rw [writeText_append] at hread ⊢
  rw [readScalar.eq_def]
  dsimp only
  rw [if_pos (.inl rfl), hread]
  rfl

end BrokerAgent.Toml
