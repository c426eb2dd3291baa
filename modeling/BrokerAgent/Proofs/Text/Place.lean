import BrokerAgent.Proofs.Text.Utf8
import BrokerAgent.Text.Place

/-!
# Places and the bytes before them

A place is what the bytes before it make of the beginning of the text. So it depends on a text
without line feeds only through its size (`after_encode_line`), and it moves on with every byte
(`after_append_ne`).
-/

namespace BrokerAgent

namespace Utf8

/-- A character takes as many bytes as its size says. -/
theorem length_encodeChar (c : Char) : (encodeChar c).length = c.utf8Size := by
  have hle : ∀ n : UInt32, c.val ≤ n ↔ c.toNat < n.toNat + 1 := fun n =>
    UInt32.le_iff_toNat_le.trans Nat.lt_succ_iff.symm
  unfold encodeChar Char.utf8Size
  simp only [hle]
  show List.length (if c.toNat < 0x80 then _ else if c.toNat < 0x800 then _
      else if c.toNat < 0x10000 then _ else _) =
    if c.toNat < 0x80 then 1 else if c.toNat < 0x800 then 2 else if c.toNat < 0x10000 then 3 else 4
  split
  · rfl
  split
  · rfl
  split <;> rfl

theorem length_encode (text : List Char) : (encode text).length = size text := by
  induction text with
  | nil => rfl
  | cons c text ih => rw [encode_cons, List.length_append, length_encodeChar, ih, size]

theorem size_append (a b : List Char) : size (a ++ b) = size a + size b := by
  rw [← length_encode, encode_append, List.length_append, length_encode, length_encode]

/-- Only the line feed has its byte in it. -/
theorem eq_newline_of_mem_encodeChar {c : Char} (h : (10 : UInt8) ∈ encodeChar c) : c = '\n' := by
  have hlt := toNat_lt c
  have hbyte : ∀ n < 256, (10 : UInt8) = UInt8.ofNat n → n = 10 := by
    intro n hn hb
    rw [← toNat_ofNat_of_lt hn, ← hb]
    rfl
  unfold encodeChar at h
  dsimp only at h
  split at h
  · have hc := hbyte c.toNat (by omega) (List.mem_singleton.1 h)
    rw [← Char.ofNat_toNat c, hc]
  -- all bytes of a longer form are larger
  · exfalso
    split at h
    · simp only [List.mem_cons, List.not_mem_nil, or_false] at h
      rcases h with h | h <;> have := hbyte _ (by omega) h <;> omega
    split at h
    · simp only [List.mem_cons, List.not_mem_nil, or_false] at h
      rcases h with h | h | h <;> have := hbyte _ (by omega) h <;> omega
    · simp only [List.mem_cons, List.not_mem_nil, or_false] at h
      rcases h with h | h | h | h <;> have := hbyte _ (by omega) h <;> omega

end Utf8

namespace Place

/-- On an earlier line, or further to the left on the same one. -/
def Before (p q : Place) : Prop :=
  p.line < q.line ∨ p.line = q.line ∧ p.column < q.column

theorem Before.trans {p q r : Place} (h : Before p q) (h' : Before q r) : Before p r := by
  unfold Before at *
  omega

theorem Before.ne {p q : Place} (h : Before p q) : p ≠ q := by
  rintro rfl
  unfold Before at h
  omega

/-- Every byte leads further. -/
theorem before_advance (p : Place) (b : UInt8) : Before p (p.advance b) := by
  unfold advance Before
  split
  · exact .inl (Nat.lt_succ_self _)
  · exact .inr ⟨rfl, Nat.lt_succ_self _⟩

theorem before_foldl {bytes : List UInt8} (h : bytes ≠ []) (p : Place) :
    Before p (bytes.foldl advance p) := by
  induction bytes generalizing p with
  | nil => exact absurd rfl h
  | cons b bytes ih =>
    rw [List.foldl_cons]
    by_cases hbytes : bytes = []
    · rw [hbytes]
      exact before_advance p b
    · exact (before_advance p b).trans (ih hbytes _)

/-- Bytes without a line feed only move the column. -/
theorem foldl_advance_line {bytes : List UInt8} (h : 10 ∉ bytes) (p : Place) :
    bytes.foldl advance p = ⟨p.line, p.column + bytes.length⟩ := by
  induction bytes generalizing p with
  | nil => rfl
  | cons b bytes ih =>
    rw [List.mem_cons, not_or] at h
    rw [List.foldl_cons, ih h.2, advance, if_neg fun hb => h.1 hb.symm, List.length_cons]
    dsimp only
    congr 1
    omega

/-- The place behind two texts is reached from behind the first. -/
theorem after_encode_append (w x : List Char) :
    after (Utf8.encode (w ++ x)) = (Utf8.encode x).foldl advance (after (Utf8.encode w)) := by
  rw [after, Utf8.encode_append, List.foldl_append, after]

/-- Every text behind a place leads to another one. -/
theorem after_append_ne {x : List Char} (hx : x ≠ []) (w : List Char) :
    after (Utf8.encode (w ++ x)) ≠ after (Utf8.encode w) := by
  obtain ⟨c, x, rfl⟩ := List.exists_cons_of_ne_nil hx
  have hbytes : Utf8.encode (c :: x) ≠ [] := by
    intro h
    have hlength := Utf8.length_encode (c :: x)
    rw [h, Utf8.size] at hlength
    have := c.utf8Size_pos
    simp only [List.length_nil] at hlength
    omega
  rw [after_encode_append]
  exact (before_foldl hbytes _).ne.symm

/-- A text on one line counts only by its size. -/
theorem after_encode_line {s : List Char} (h : '\n' ∉ s) (w : List Char) :
    after (Utf8.encode (w ++ s)) =
      ⟨(after (Utf8.encode w)).line, (after (Utf8.encode w)).column + Utf8.size s⟩ := by
  have hbytes : 10 ∉ Utf8.encode s := by
    intro hmem
    obtain ⟨c, hc, hbyte⟩ := List.mem_flatMap.1 hmem
    exact h (Utf8.eq_newline_of_mem_encodeChar hbyte ▸ hc)
  rw [after_encode_append, foldl_advance_line hbytes, Utf8.length_encode]

end Place

namespace Mark

/-- A mark with nothing past it is the place behind what stands before it. -/
theorem place_here (w u : List Char) : (here u).place (w ++ u) = Place.after (Utf8.encode w) := by
  have hsize : Utf8.size (w ++ u) - Utf8.size u + 0 = (Utf8.encode w).length := by
    rw [Utf8.size_append, Utf8.length_encode]
    omega
  rw [place, here, hsize, Utf8.encode_append, List.take_left]

end Mark

end BrokerAgent
