import BrokerAgent.Text.Utf8

/-!
# What is written in UTF-8 is read back

`decode?` undoes `encode` on every text. The bytes of one character are read at the front of any
other bytes, so the law for texts is an induction over the characters. Bytes that are cut short are
a shorter text if the cut falls between two characters (`Between`), and no text otherwise.
-/

namespace BrokerAgent.Utf8

/-- A character comes back from its number, in the form that was right for it. -/
theorem scalar?_toNat {least : Nat} (c : Char) (h : least ≤ c.toNat) :
    scalar? least c.toNat = some c := by
  rw [scalar?, if_pos ⟨h, c.valid⟩, Char.ofNat_toNat]

/-- Characters have numbers below 0x110000. -/
theorem toNat_lt (c : Char) : c.toNat < 0x110000 := by
  rcases c.valid with h | ⟨-, h⟩
  · exact Nat.lt_trans h (by decide)
  · exact h

theorem toNat_ofNat_of_lt {n : Nat} (h : n < 256) : (UInt8.ofNat n).toNat = n :=
  UInt8.toNat_ofNat_of_lt' h

/-- Six bits are read back from their byte. -/
theorem continuation?_ofNat {n : Nat} (h : n < 64) :
    continuation? (UInt8.ofNat (0x80 + n)) = some n := by
  rw [continuation?, toNat_ofNat_of_lt (by omega), if_pos (by omega)]
  simp

/-- The bytes of a character are read as that character, whatever follows them. -/
theorem decode?_encodeChar (c : Char) (bytes : List UInt8) :
    decode? (encodeChar c ++ bytes) = (decode? bytes).map (c :: ·) := by
  have hlt := toNat_lt c
  unfold encodeChar
  dsimp only
  split
  -- one byte
  · rename_i h
    rw [List.singleton_append, decode?.eq_def]
    dsimp only
    rw [toNat_ofNat_of_lt (by omega), if_pos h, Char.ofNat_toNat]
    exact Option.map_eq_bind.symm
  split
  -- two bytes: the leading one has the upper bits
  · rename_i h₁ h₂
    have hv : c.toNat / 64 * 64 + c.toNat % 64 = c.toNat := by omega
    have ha : 0xC0 + c.toNat / 64 - 0xC0 = c.toNat / 64 := by omega
    rw [List.cons_append, List.singleton_append, decode?, toNat_ofNat_of_lt (by omega),
      if_neg (by omega), if_neg (by omega), if_pos (by omega)]
    simp only [ha, continuation?_ofNat (Nat.mod_lt _ (by decide : 64 > 0)), Option.bind_eq_bind,
      Option.bind_some, hv, scalar?_toNat c (Nat.not_lt.1 h₁)]
    exact Option.map_eq_bind.symm
  split
  -- three bytes
  · rename_i h₁ h₂ h₃
    have hv : (c.toNat / 4096 * 64 + c.toNat / 64 % 64) * 64 + c.toNat % 64 = c.toNat := by omega
    have ha : 0xE0 + c.toNat / 4096 - 0xE0 = c.toNat / 4096 := by omega
    rw [List.cons_append, List.cons_append, List.singleton_append, decode?,
      toNat_ofNat_of_lt (by omega), if_neg (by omega), if_neg (by omega), if_neg (by omega),
      if_pos (by omega)]
    simp only [ha, continuation?_ofNat (Nat.mod_lt _ (by decide : 64 > 0)), Option.bind_eq_bind,
      Option.bind_some, hv, scalar?_toNat c (Nat.not_lt.1 h₂)]
    exact Option.map_eq_bind.symm
  -- four bytes: a character has at most 21 bits
  · rename_i h₁ h₂ h₃
    have hv : ((c.toNat / 262144 * 64 + c.toNat / 4096 % 64) * 64 + c.toNat / 64 % 64) * 64 +
        c.toNat % 64 = c.toNat := by omega
    have ha : 0xF0 + c.toNat / 262144 - 0xF0 = c.toNat / 262144 := by omega
    rw [List.cons_append, List.cons_append, List.cons_append, List.singleton_append, decode?,
      toNat_ofNat_of_lt (by omega), if_neg (by omega), if_neg (by omega), if_neg (by omega),
      if_neg (by omega)]
    simp only [ha, continuation?_ofNat (Nat.mod_lt _ (by decide : 64 > 0)), Option.bind_eq_bind,
      Option.bind_some, hv, scalar?_toNat c (Nat.not_lt.1 h₃)]
    exact Option.map_eq_bind.symm

/-- Every text is read back from its bytes. -/
theorem decode?_encode (text : List Char) : decode? (encode text) = some text := by
  induction text with
  | nil => simp [encode, decode?]
  | cons c text ih =>
    rw [encode, List.flatMap_cons, decode?_encodeChar, ← encode, ih]
    rfl

/-! ## Bytes that are cut short -/

/-- The first `n` bytes of a text are the bytes of its first characters. -/
def Between (text : List Char) (n : Nat) : Prop :=
  ∃ before after, text = before ++ after ∧ (encode before).length = n

theorem encode_append (a b : List Char) : encode (a ++ b) = encode a ++ encode b :=
  List.flatMap_append

theorem encode_cons (c : Char) (text : List Char) :
    encode (c :: text) = encodeChar c ++ encode text :=
  List.flatMap_cons

/-- A leading byte stands for at least two. -/
theorem decode?_one {a : UInt8} (h : 0xC0 ≤ a.toNat) : decode? [a] = none := by
  rw [decode?.eq_def]
  dsimp only
  rw [if_neg (by omega), if_neg (by omega)]
  split
  · rfl
  split <;> rfl

/-- From `0xE0` on it stands for at least three. -/
theorem decode?_two {a : UInt8} (h : 0xE0 ≤ a.toNat) (b : UInt8) : decode? [a, b] = none := by
  rw [decode?.eq_def]
  dsimp only
  rw [if_neg (by omega), if_neg (by omega), if_neg (by omega)]
  split <;> rfl

/-- From `0xF0` on it stands for four. -/
theorem decode?_three {a : UInt8} (h : 0xF0 ≤ a.toNat) (b c : UInt8) :
    decode? [a, b, c] = none := by
  rw [decode?.eq_def]
  dsimp only
  rw [if_neg (by omega), if_neg (by omega), if_neg (by omega), if_neg (by omega)]

/-- A part of the bytes of a character is no text: the first byte asks for more of them. -/
theorem decode?_take_encodeChar (c : Char) {n : Nat} (hpos : 0 < n)
    (hn : n < (encodeChar c).length) : decode? ((encodeChar c).take n) = none := by
  have hlt := toNat_lt c
  unfold encodeChar at hn ⊢
  dsimp only at hn ⊢
  split
  · rename_i h
    rw [if_pos h, List.length_singleton] at hn
    omega
  split
  · rename_i h₁ h₂
    rw [if_neg h₁, if_pos h₂, List.length_cons, List.length_singleton] at hn
    obtain rfl : n = 1 := by omega
    exact decode?_one (by rw [toNat_ofNat_of_lt] <;> omega)
  split
  · rename_i h₁ h₂ h₃
    rw [if_neg h₁, if_neg h₂, if_pos h₃] at hn
    simp only [List.length_cons, List.length_nil] at hn
    have ha : 0xE0 ≤ (UInt8.ofNat (0xE0 + c.toNat / 4096)).toNat := by
      rw [toNat_ofNat_of_lt] <;> omega
    obtain rfl | rfl : n = 1 ∨ n = 2 := by omega
    · exact decode?_one (Nat.le_trans (by decide) ha)
    · exact decode?_two ha _
  · rename_i h₁ h₂ h₃
    rw [if_neg h₁, if_neg h₂, if_neg h₃] at hn
    simp only [List.length_cons, List.length_nil] at hn
    have ha : 0xF0 ≤ (UInt8.ofNat (0xF0 + c.toNat / 262144)).toNat := by
      rw [toNat_ofNat_of_lt] <;> omega
    obtain rfl | rfl | rfl : n = 1 ∨ n = 2 ∨ n = 3 := by omega
    · exact decode?_one (Nat.le_trans (by decide) ha)
    · exact decode?_two (Nat.le_trans (by decide) ha) _
    · exact decode?_three ha _ _

/-- Bytes that end inside a character are no text. -/
theorem decode?_take_encode {text : List Char} {n : Nat} (hn : n ≤ (encode text).length)
    (hcut : ¬ Between text n) : decode? ((encode text).take n) = none := by
  induction text generalizing n with
  | nil => exact absurd ⟨[], [], rfl, (Nat.le_zero.1 hn).symm⟩ hcut
  | cons c text ih =>
    rw [encode_cons] at hn ⊢
    by_cases hc : n < (encodeChar c).length
    · have hpos : 0 < n := Nat.pos_of_ne_zero fun h => hcut ⟨[], c :: text, rfl, h.symm⟩
      rw [List.take_append_of_le_length (Nat.le_of_lt hc)]
      exact decode?_take_encodeChar c hpos hc
    · -- the cut lies in the characters behind the first one
      have hlater : ¬ Between text (n - (encodeChar c).length) := by
        rintro ⟨before, after, rfl, hlength⟩
        refine hcut ⟨c :: before, after, rfl, ?_⟩
        rw [encode_cons, List.length_append]
        omega
      rw [List.length_append] at hn
      rw [List.take_append, List.take_of_length_le (Nat.not_lt.1 hc), decode?_encodeChar,
        ih (by omega) hlater]
      rfl

/-- Bytes that end between two characters are the characters in front. -/
theorem take_encode_of_between {text : List Char} {n : Nat} (h : Between text n) :
    ∃ before after, text = before ++ after ∧ (encode text).take n = encode before := by
  obtain ⟨before, after, rfl, rfl⟩ := h
  refine ⟨before, after, rfl, ?_⟩
  rw [encode_append, List.take_left]

/-- Whether a cut falls between two characters can be seen from reading what is left. -/
theorem between_iff {text : List Char} {n : Nat} (hn : n ≤ (encode text).length) :
    Between text n ↔ (decode? ((encode text).take n)).isSome := by
  constructor
  · intro h
    obtain ⟨before, after, -, htake⟩ := take_encode_of_between h
    rw [htake, decode?_encode]
    rfl
  · intro h
    apply Classical.byContradiction
    intro hcut
    rw [decode?_take_encode hn hcut] at h
    cases h

end BrokerAgent.Utf8
