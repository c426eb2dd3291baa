import BrokerAgent.Decimal.Binary64
import Mathlib.Tactic.Ring

/-!
# Which numbers double precision holds

Rounding to the format fails only for numbers that are too large. A ratio below `2 ^ 1023` always
rounds to a number of the format (`ofRatio_of_lt`), and rounding does not carry a ratio across a
power of two or below one, so products and quotients of rounded numbers can be bounded by the
powers of two that bound their factors.
-/

namespace BrokerAgent

theorem twoTo_eq (n : Nat) : twoTo n = 2 ^ n := rfl

theorem tenTo_eq (n : Nat) : tenTo n = 10 ^ n := rfl

namespace Binary64

/-! ## The leading binary digit -/

/-- The exponent of the leading digit is the difference of those of the two numbers, or one less
where the numerator falls short of that. -/
theorem leading_cases (num den : Nat) :
    leading num den = (num.log2 : Int) - den.log2 - 1 ∨
      leading num den = (num.log2 : Int) - den.log2 ∧
        (den.log2 ≤ num.log2 → den * 2 ^ (num.log2 - den.log2) ≤ num) := by
  unfold leading
  by_cases hg : den.log2 ≤ num.log2
  · have hi : 0 ≤ (num.log2 : Int) - (den.log2 : Int) := by omega
    have ht : ((num.log2 : Int) - (den.log2 : Int)).toNat = num.log2 - den.log2 := by omega
    simp only [hi, if_true, ht, decide_eq_true_eq]
    split
    · rename_i hr
      exact .inr ⟨rfl, fun _ => hr⟩
    · exact .inl rfl
  · dsimp only
    generalize (if 0 ≤ (num.log2 : Int) - (den.log2 : Int) then _ else _ : Bool) = reached
    cases reached with
    | true => exact .inr ⟨rfl, fun h => absurd h hg⟩
    | false => exact .inl rfl

/-- The exponent of the leading digit of a ratio below `2 ^ k` is below `k`. -/
theorem leading_lt {num den k : Nat} (hn : num ≠ 0) (h : num < den * 2 ^ k) :
    leading num den < k := by
  rcases leading_cases num den with he | ⟨he, hr⟩
  -- the guess was one too high: compare the powers of two below `num` and above `den`
  · have hp : 2 ^ num.log2 < 2 ^ (den.log2 + 1 + k) := by
      calc 2 ^ num.log2 ≤ num := Nat.log2_self_le hn
        _ < den * 2 ^ k := h
        _ ≤ 2 ^ (den.log2 + 1) * 2 ^ k := Nat.mul_le_mul_right _ (Nat.le_of_lt Nat.lt_log2_self)
        _ = 2 ^ (den.log2 + 1 + k) := (Nat.pow_add _ _ _).symm
    have := (Nat.pow_lt_pow_iff_right (by decide)).1 hp
    omega
  · by_cases hg : den.log2 ≤ num.log2
    · have hp : 2 ^ (num.log2 - den.log2) < 2 ^ k :=
        Nat.lt_of_mul_lt_mul_left (Nat.lt_of_le_of_lt (hr hg) h)
      have := (Nat.pow_lt_pow_iff_right (by decide)).1 hp
      omega
    · omega

/-- The leading digit of a ratio stands for no more than the ratio. -/
theorem mul_le_of_le_leading {num den e : Nat} (hn : num ≠ 0) (h : (e : Int) ≤ leading num den) :
    den * 2 ^ e ≤ num := by
  rcases leading_cases num den with he | ⟨he, hr⟩
  · calc den * 2 ^ e ≤ 2 ^ (den.log2 + 1) * 2 ^ e :=
          Nat.mul_le_mul_right _ (Nat.le_of_lt Nat.lt_log2_self)
      _ = 2 ^ (den.log2 + 1 + e) := (Nat.pow_add _ _ _).symm
      _ ≤ 2 ^ num.log2 := Nat.pow_le_pow_right (by decide) (by omega)
      _ ≤ num := Nat.log2_self_le hn
  · have hp : 2 ^ e ≤ 2 ^ (num.log2 - den.log2) := Nat.pow_le_pow_right (by decide) (by omega)
    exact Nat.le_trans (Nat.mul_le_mul_left _ hp) (hr (by omega))

/-! ## Rounding -/

/-- Rounding does not go past a whole number that is an upper bound. -/
theorem roundHalfEven_le {num den bound : Nat} (hd : 0 < den) (h : num ≤ den * bound) :
    roundHalfEven num den ≤ bound := by
  have hq : num / den ≤ bound := Nat.div_le_of_le_mul h
  have hdm := Nat.div_add_mod num den
  unfold roundHalfEven
  dsimp only
  by_cases he : num / den = bound
  · rw [he] at hdm
    -- on the bound itself nothing is left to round
    have hz : num % den = 0 := by omega
    rw [hz, if_pos (by omega)]
    exact hq
  · split
    · exact hq
    · split <;> omega

/-- Rounding does not fall below a whole number that is a lower bound. -/
theorem le_roundHalfEven {num den bound : Nat} (hd : 0 < den) (h : den * bound ≤ num) :
    bound ≤ roundHalfEven num den := by
  have hq : bound ≤ num / den := (Nat.le_div_iff_mul_le hd).2 (by rwa [Nat.mul_comm])
  unfold roundHalfEven
  dsimp only
  split
  · exact hq
  · split <;> omega

/-! ## Rounded ratios -/

/-- The exponent with which a ratio is rounded. -/
def gridExponent (num den : Nat) : Int :=
  max (leading num den - 52) (-1074)

/-- The significand that a ratio is rounded to on its grid. -/
def gridSignificand (num den : Nat) : Nat :=
  roundHalfEven (num * 2 ^ (-gridExponent num den).toNat) (den * 2 ^ (gridExponent num den).toNat)

/-- A rounded ratio lies on its grid, or on the next coarser one where its significand became too
long. -/
theorem ofRatio_eq {num den : Nat} (hn : num ≠ 0) :
    ofRatio num den =
      if gridSignificand num den = 2 ^ 53 then
        if 971 < gridExponent num den + 1 then none
        else some ⟨2 ^ 52, gridExponent num den + 1⟩
      else if 971 < gridExponent num den then none
      else some ⟨gridSignificand num den, gridExponent num den⟩ := by
  -- one of the two powers is one, so both branches of the definition are the same division
  have hr : gridSignificand num den =
      if 0 ≤ gridExponent num den then
        roundHalfEven num (den * 2 ^ (gridExponent num den).toNat)
      else roundHalfEven (num * 2 ^ (-gridExponent num den).toNat) den := by
    unfold gridSignificand
    by_cases he : 0 ≤ gridExponent num den
    · rw [if_pos he, show (-gridExponent num den).toNat = 0 by omega, Nat.pow_zero, Nat.mul_one]
    · rw [if_neg he, show (gridExponent num den).toNat = 0 by omega, Nat.pow_zero, Nat.mul_one]
  unfold ofRatio
  rw [if_neg hn]
  dsimp only [twoTo_eq]
  rw [← gridExponent]
  by_cases he : 0 ≤ gridExponent num den
  · rw [if_pos he] at hr
    simp only [if_pos he, ← hr]
    split <;> rfl
  · rw [if_neg he] at hr
    simp only [if_neg he, ← hr]
    split <;> rfl

/-- Every ratio below `2 ^ 1023` is rounded to a number of the format. -/
theorem ofRatio_of_lt {num den : Nat} (h : num < den * 2 ^ 1023) :
    ∃ x, ofRatio num den = some x := by
  by_cases hn : num = 0
  · exact ⟨zero, by rw [ofRatio, if_pos hn]⟩
  · have hl := leading_lt hn h
    have he : gridExponent num den ≤ 970 := by
      unfold gridExponent
      omega
    rw [ofRatio_eq hn]
    split
    · exact ⟨_, if_neg (by omega)⟩
    · exact ⟨_, if_neg (by omega)⟩

/-! ## Bounds by powers of two -/

/-- A binary number as a fraction, of which one of the two powers is one. -/
theorem ratio_eq (x : Binary64) :
    x.ratio = (x.significand * 2 ^ x.exponent.toNat, 2 ^ (-x.exponent).toNat) := by
  unfold ratio
  by_cases he : 0 ≤ x.exponent
  · rw [if_pos he, show (-x.exponent).toNat = 0 by omega]
    rfl
  · rw [if_neg he, show x.exponent.toNat = 0 by omega, Nat.pow_zero, Nat.mul_one]
    rfl

/-- A number of at most `2 ^ k`. -/
def AtMost (x : Binary64) (k : Nat) : Prop :=
  x.ratio.1 ≤ x.ratio.2 * 2 ^ k

/-- The bound of a binary number without division. -/
theorem atMost_iff {x : Binary64} {k : Nat} :
    x.AtMost k ↔ x.significand * 2 ^ x.exponent.toNat ≤ 2 ^ ((-x.exponent).toNat + k) := by
  rw [AtMost, ratio_eq, Nat.pow_add]

/-- Rounding does not carry a ratio above a power of two. -/
theorem atMost_of_ofRatio {num den k : Nat} {x : Binary64} (hd : 0 < den)
    (h : num ≤ den * 2 ^ k) (hx : ofRatio num den = some x) : x.AtMost k := by
  rw [atMost_iff]
  by_cases hn : num = 0
  · obtain rfl : zero = x := by simpa [ofRatio, hn] using hx
    simp [zero]
  -- on its own grid the significand is at most the power of two
  · have hgrid : gridSignificand num den * 2 ^ (gridExponent num den).toNat ≤
        2 ^ ((-gridExponent num den).toNat + k) := by
      by_cases he : 0 ≤ gridExponent num den
      · have hl : leading num den < (k + 1 : Nat) := by
          apply leading_lt hn
          calc num ≤ den * 2 ^ k := h
            _ < den * 2 ^ (k + 1) :=
              Nat.mul_lt_mul_of_pos_left (Nat.pow_lt_pow_right (by decide) (by omega)) hd
        have hk : (gridExponent num den).toNat ≤ k := by
          unfold gridExponent at he ⊢
          omega
        have hr : gridSignificand num den ≤ 2 ^ (k - (gridExponent num den).toNat) := by
          apply roundHalfEven_le (Nat.mul_pos hd (Nat.two_pow_pos _))
          rw [show (-gridExponent num den).toNat = 0 by omega, Nat.pow_zero, Nat.mul_one,
            Nat.mul_assoc, ← Nat.pow_add, Nat.add_sub_cancel' hk]
          exact h
        calc gridSignificand num den * 2 ^ (gridExponent num den).toNat
            ≤ 2 ^ (k - (gridExponent num den).toNat) * 2 ^ (gridExponent num den).toNat :=
              Nat.mul_le_mul_right _ hr
          _ = 2 ^ ((-gridExponent num den).toNat + k) := by
              rw [← Nat.pow_add]
              congr 1
              omega
      · rw [show (gridExponent num den).toNat = 0 by omega, Nat.pow_zero, Nat.mul_one]
        apply roundHalfEven_le (Nat.mul_pos hd (Nat.two_pow_pos _))
        rw [show (gridExponent num den).toNat = 0 by omega, Nat.pow_zero, Nat.mul_one, Nat.pow_add,
          Nat.mul_comm (2 ^ _) (2 ^ k), ← Nat.mul_assoc]
        exact Nat.mul_le_mul_right _ h
    rw [ofRatio_eq hn] at hx
    split at hx
    · rename_i hr
      -- one grid up: the same number with half the significand
      rw [hr, ← Nat.pow_add] at hgrid
      have he := (Nat.pow_le_pow_iff_right (by decide : 1 < 2)).1 hgrid
      split at hx
      · cases hx
      · obtain rfl := Option.some.inj hx
        rw [← Nat.pow_add]
        exact Nat.pow_le_pow_right (by decide) (by dsimp only; omega)
    · split at hx
      · cases hx
      · obtain rfl := Option.some.inj hx
        exact hgrid

/-- Rounding does not carry a ratio below one. -/
theorem one_le_of_ofRatio {num den : Nat} {x : Binary64} (hd : 0 < den) (h : den ≤ num)
    (hx : ofRatio num den = some x) : x.ratio.2 ≤ x.ratio.1 := by
  have hn : num ≠ 0 := by omega
  -- on its own grid the significand is at least the power of two that stands for one
  have hgrid : 2 ^ (-gridExponent num den).toNat ≤
      gridSignificand num den * 2 ^ (gridExponent num den).toNat := by
    by_cases he : 0 ≤ gridExponent num den
    · have hr : 1 ≤ gridSignificand num den := by
        apply le_roundHalfEven (Nat.mul_pos hd (Nat.two_pow_pos _))
        rw [show (-gridExponent num den).toNat = 0 by omega, Nat.pow_zero, Nat.mul_one,
          Nat.mul_one]
        apply mul_le_of_le_leading hn
        unfold gridExponent at he ⊢
        omega
      rw [show (-gridExponent num den).toNat = 0 by omega, Nat.pow_zero]
      exact Nat.mul_pos hr (Nat.two_pow_pos _)
    · rw [show (gridExponent num den).toNat = 0 by omega, Nat.pow_zero, Nat.mul_one]
      apply le_roundHalfEven (Nat.mul_pos hd (Nat.two_pow_pos _))
      rw [show (gridExponent num den).toNat = 0 by omega, Nat.pow_zero, Nat.mul_one]
      exact Nat.mul_le_mul_right _ h
  rw [ratio_eq]
  dsimp only
  rw [ofRatio_eq hn] at hx
  split at hx
  · rename_i hr
    rw [hr, ← Nat.pow_add] at hgrid
    have he := (Nat.pow_le_pow_iff_right (by decide : 1 < 2)).1 hgrid
    split at hx
    · cases hx
    · obtain rfl := Option.some.inj hx
      rw [← Nat.pow_add]
      exact Nat.pow_le_pow_right (by decide) (by dsimp only; omega)
  · split at hx
    · cases hx
    · obtain rfl := Option.some.inj hx
      exact hgrid

/-! ## Products and quotients -/

/-- The denominator of a binary number is no zero. -/
theorem ratio_den_pos (x : Binary64) : 0 < x.ratio.2 := by
  rw [ratio_eq]
  exact Nat.two_pow_pos _

/-- A whole number up to `2 ^ k` is held as a number up to `2 ^ k`. -/
theorem ofNat_of_le {n k : Nat} (hk : k < 1023) (h : n ≤ 2 ^ k) :
    ∃ x, ofNat n = some x ∧ x.AtMost k := by
  have hlt : ∀ m, k < m → n < 1 * 2 ^ m := by
    intro m hm
    calc n ≤ 2 ^ k := h
      _ < 2 ^ m := Nat.pow_lt_pow_right (by decide) hm
      _ = 1 * 2 ^ m := (Nat.one_mul _).symm
  obtain ⟨x, hx⟩ := ofRatio_of_lt (hlt 1023 hk)
  exact ⟨x, hx, atMost_of_ofRatio Nat.one_pos (by rwa [Nat.one_mul]) hx⟩

theorem zero_mul (y : Binary64) : zero.mul y = some zero := by
  have hnum : zero.ratio.1 * y.ratio.1 = 0 := Nat.zero_mul _
  rw [mul, ofRatio, if_pos hnum]

theorem mul_pow_lt {d j k : Nat} (hd : 0 < d) (h : j < k) : d * 2 ^ j < d * 2 ^ k :=
  Nat.mul_lt_mul_of_pos_left (Nat.pow_lt_pow_right (by decide) h) hd

/-- A product is held when the powers of two that bound its factors leave room for it. -/
theorem mul_of_atMost {x y : Binary64} {a b : Nat} (hx : x.AtMost a) (hy : y.AtMost b)
    (h : a + b < 1023) : ∃ z, x.mul y = some z := by
  apply ofRatio_of_lt
  calc x.ratio.1 * y.ratio.1 ≤ (x.ratio.2 * 2 ^ a) * (y.ratio.2 * 2 ^ b) := Nat.mul_le_mul hx hy
    _ = (x.ratio.2 * y.ratio.2) * 2 ^ (a + b) := by rw [Nat.pow_add]; ac_rfl
    _ < (x.ratio.2 * y.ratio.2) * 2 ^ 1023 :=
      mul_pow_lt (Nat.mul_pos x.ratio_den_pos y.ratio_den_pos) h

/-- Dividing by a number of at least one is always possible, and does not lead above a power of
two. -/
theorem div_of_one_le {x y : Binary64} {k : Nat} (hk : k < 1023) (hx : x.AtMost k)
    (hy : y.ratio.2 ≤ y.ratio.1) : ∃ z, x.div y = some z ∧ z.AtMost k := by
  have hd : 0 < x.ratio.2 * y.ratio.1 :=
    Nat.mul_pos x.ratio_den_pos (Nat.lt_of_lt_of_le y.ratio_den_pos hy)
  have hle : x.ratio.1 * y.ratio.2 ≤ (x.ratio.2 * y.ratio.1) * 2 ^ k := by
    calc x.ratio.1 * y.ratio.2 ≤ (x.ratio.2 * 2 ^ k) * y.ratio.1 := Nat.mul_le_mul hx hy
      _ = (x.ratio.2 * y.ratio.1) * 2 ^ k := by ac_rfl
  have hlt : x.ratio.1 * y.ratio.2 < (x.ratio.2 * y.ratio.1) * 2 ^ 1023 := by
    calc x.ratio.1 * y.ratio.2 ≤ (x.ratio.2 * y.ratio.1) * 2 ^ k := hle
      _ < (x.ratio.2 * y.ratio.1) * 2 ^ 1023 := mul_pow_lt hd hk
  obtain ⟨z, hz⟩ := ofRatio_of_lt hlt
  exact ⟨z, hz, atMost_of_ofRatio hd hle hz⟩

end Binary64
end BrokerAgent
