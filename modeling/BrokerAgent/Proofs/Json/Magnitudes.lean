import BrokerAgent.Proofs.Decimal.Range
import BrokerAgent.Proofs.Json.Numbers

/-!
# Which numbers are too large

A number is refused when its digits times its power of ten lie above the format. The digits and the
power are rounded apart from each other, and digits that 64 bits cannot hold are dropped, so the
border is not exactly the largest number of the format. `number_of_below` says that it lies
above `10 ^ 307`: every number below that is read.
-/

namespace BrokerAgent.Json

/-! ## Scaling -/

/-- Every power of ten that is divided or multiplied by is held, and is at least one. -/
theorem power_held {k : Nat} (hk : k ≤ largestPower) :
    ∃ y, Binary64.ofNat (tenTo k) = some y ∧ y.ratio.2 ≤ y.ratio.1 := by
  have hheld : ∃ y, Binary64.ofNat (tenTo k) = some y := by
    by_cases hlast : k = 308
    · rw [hlast]
      -- the last power is above the general bound
      exact Option.isSome_iff_exists.1 (by decide +kernel)
    · have hle : k ≤ 307 := by unfold largestPower at hk; omega
      have hlt : 10 ^ k ≤ 2 ^ 1022 :=
        Nat.le_trans (Nat.pow_le_pow_right (by decide) hle) (by decide +kernel)
      obtain ⟨y, hy, -⟩ := Binary64.ofNat_of_le (by decide) hlt
      exact ⟨y, hy⟩
  obtain ⟨y, hy⟩ := hheld
  exact ⟨y, hy, Binary64.one_le_of_ofRatio Nat.one_pos (Nat.one_le_pow _ _ (by decide)) hy⟩

/-- Division by a power of ten keeps a binary number in its bounds. -/
theorem divPower_held {x : Binary64} {j k : Nat} (hx : x.AtMost j) (hj : j < 1023)
    (hk : k ≤ largestPower) : ∃ z, divPower x k = some z ∧ z.AtMost j := by
  obtain ⟨y, hy, hone⟩ := power_held hk
  obtain ⟨z, hz, hle⟩ := Binary64.div_of_one_le hj hx hone
  exact ⟨z, by rw [divPower, hy]; exact hz, hle⟩

theorem divSteps_held {x : Binary64} {j : Nat} (hx : x.AtMost j) (hj : j < 1023) (steps : Nat) :
    ∃ z, divSteps x steps = some z ∧ z.AtMost j := by
  induction steps generalizing x with
  | zero => exact ⟨x, rfl, hx⟩
  | succ steps ih =>
    rw [divSteps]
    split
    · exact ⟨x, rfl, hx⟩
    · obtain ⟨y, hy, hle⟩ := divPower_held hx hj (Nat.le_refl largestPower)
      obtain ⟨z, hz, hlast⟩ := ih hle
      exact ⟨z, by rw [hy]; exact hz, hlast⟩

/-- Dividing never leads out of the format. -/
theorem shrink_held {x : Binary64} {j : Nat} (hx : x.AtMost j) (hj : j < 1023) (power : Nat) :
    ∃ z, shrink x power = some z := by
  obtain ⟨y, hy, hle⟩ := divSteps_held hx hj ((power - 1) / largestPower)
  have hk : power - (power - 1) / largestPower * largestPower ≤ largestPower := by
    unfold largestPower
    omega
  obtain ⟨z, hz, -⟩ := divPower_held hle hj hk
  exact ⟨z, by rw [shrink, hy]; exact hz⟩

/-- The least power of two that a number does not exceed is at most twice the number. -/
theorem exists_bound {n : Nat} (hn : n ≠ 0) : ∃ k, n ≤ 2 ^ k ∧ 2 ^ k ≤ 2 * n :=
  ⟨n.log2 + 1, Nat.le_of_lt Nat.lt_log2_self, by
    rw [Nat.pow_succ, Nat.mul_comm]
    exact Nat.mul_le_mul_left 2 (Nat.log2_self_le hn)⟩

/-- Zero is held, whatever power of ten it is multiplied by. -/
theorem scale_zero {power : Int} (hp : 0 ≤ power) : scale 0 power = some .zero := by
  have hx : Binary64.ofNat 0 = some .zero := rfl
  unfold scale
  rw [hx, Option.bind_eq_bind, Option.bind_some, if_neg (by omega)]
  by_cases hle : power ≤ largestPower
  · obtain ⟨y, hy, -⟩ := power_held (k := power.toNat) (by omega)
    rw [if_pos hle, hy]
    exact y.zero_mul
  · rw [if_neg hle]
    rfl

/-- The bounds of two factors leave the room that their product leaves, but for one digit each. -/
theorem exponents_lt {m n a b k : Nat} (ha : 2 ^ a ≤ 2 * m) (hb : 2 ^ b ≤ 2 * n)
    (h : m * n < 2 ^ k) : a + b < k + 2 := by
  apply (Nat.pow_lt_pow_iff_right (by decide : 1 < 2)).1
  calc 2 ^ (a + b) = 2 ^ a * 2 ^ b := Nat.pow_add ..
    _ ≤ (2 * m) * (2 * n) := Nat.mul_le_mul ha hb
    _ = (m * n) * (2 * 2) := by ac_rfl
    _ < 2 ^ k * (2 * 2) := Nat.mul_lt_mul_of_pos_right h (by decide)
    _ = 2 ^ (k + 2) := by rw [Nat.pow_add]

/-- Digits times a power of ten are held below `2 ^ 1021`. -/
theorem scale_of_lt {digits : Nat} {power : Int} (hd : digits < 2 ^ 64)
    (h : 0 ≤ power → digits * 10 ^ power.toNat < 2 ^ 1021) : ∃ z, scale digits power = some z := by
  by_cases hneg : power < 0
  · obtain ⟨x, hx, hle⟩ := Binary64.ofNat_of_le (by decide : 64 < 1023) (Nat.le_of_lt hd)
    obtain ⟨z, hz⟩ := shrink_held hle (by decide) power.natAbs
    refine ⟨z, ?_⟩
    unfold scale
    rw [hx, Option.bind_eq_bind, Option.bind_some, if_pos hneg]
    exact hz
  by_cases hzero : digits = 0
  · exact ⟨_, hzero ▸ scale_zero (by omega)⟩
  · have hlt := h (by omega)
    have hpos : 0 < 10 ^ power.toNat := Nat.pow_pos (by decide)
    have hpower : power.toNat < 308 := by
      apply (Nat.pow_lt_pow_iff_right (by decide : 1 < 10)).1
      calc 10 ^ power.toNat ≤ digits * 10 ^ power.toNat :=
            Nat.le_mul_of_pos_left _ (Nat.pos_of_ne_zero hzero)
        _ < 2 ^ 1021 := hlt
        _ ≤ 10 ^ 308 := by decide +kernel
    -- the powers of two next above the two factors leave room for the rounded product
    obtain ⟨a, hda, had⟩ := exists_bound hzero
    obtain ⟨b, hpb, hbp⟩ := exists_bound (Nat.ne_of_gt hpos)
    have hab : a + b < 1021 + 2 := exponents_lt had hbp hlt
    obtain ⟨x, hx, hxa⟩ := Binary64.ofNat_of_le (by omega) hda
    obtain ⟨y, hy, hyb⟩ := Binary64.ofNat_of_le (by omega) hpb
    obtain ⟨z, hz⟩ := Binary64.mul_of_atMost hxa hyb hab
    refine ⟨z, ?_⟩
    unfold scale
    rw [hx, Option.bind_eq_bind, Option.bind_some, if_neg hneg,
      if_pos (by unfold largestPower; omega), tenTo_eq, hy]
    exact hz

/-! ## Digits that are taken -/

open Text (numeral)

/-- A row of digits after a number. -/
def extend (n : Nat) (digits : List Char) : Nat :=
  digits.foldl (fun n c => n * 10 + Text.digitValue c) n

theorem extend_cons (n : Nat) (c : Char) (digits : List Char) :
    extend n (c :: digits) = extend (n * 10 + Text.digitValue c) digits := by
  unfold extend
  rw [List.foldl_cons]

/-- Every digit multiplies by ten at least. -/
theorem mul_pow_le_extend (n : Nat) (digits : List Char) :
    n * 10 ^ digits.length ≤ extend n digits := by
  induction digits generalizing n with
  | nil => exact Nat.le_of_eq (Nat.mul_one n)
  | cons c digits ih =>
    calc n * 10 ^ (digits.length + 1) = n * 10 * 10 ^ digits.length := by rw [Nat.pow_succ]; ac_rfl
      _ ≤ (n * 10 + Text.digitValue c) * 10 ^ digits.length :=
        Nat.mul_le_mul_right _ (Nat.le_add_right ..)
      _ ≤ extend n (c :: digits) := by
        rw [extend_cons]
        exact ih _

/-- The same digits after more give more. -/
theorem extend_mono {m n : Nat} (h : m ≤ n) (digits : List Char) :
    extend m digits ≤ extend n digits := by
  induction digits generalizing m n with
  | nil => exact h
  | cons c digits ih =>
    rw [extend_cons, extend_cons]
    exact ih (by omega)

/-- The value of a numeral is read from its front. -/
theorem numeral_eq {digits : List Char} (hd : ∀ c ∈ digits, c.isDigit = true) :
    numeral 10 digits = extend 0 digits := by
  have h : ∀ n, digits.foldl (fun n c => n * 10 + (Text.hexDigit? c).getD 0) n =
      extend n digits := by
    induction digits with
    | nil => exact fun n => rfl
    | cons c digits ih =>
      intro n
      have hc : Text.hexDigit? c = some (Text.digitValue c) := if_pos (hd c List.mem_cons_self)
      rw [List.foldl_cons, hc, extend_cons]
      exact ih (fun d h => hd d (List.mem_cons_of_mem c h)) _
  exact h 0

/-- Going on from the digits that are taken with those that are left gives all of them. -/
theorem extend_taken (limit n : Nat) (digits : List Char) :
    extend (takeDigits limit n digits).1 (takeDigits limit n digits).2.2 = extend n digits := by
  induction digits generalizing n with
  | nil => rfl
  | cons c digits ih =>
    rw [takeDigits]
    split
    · rw [extend_cons, ← ih]
    · rfl

/-- The digits that are taken, as a number with a zero for each one left, are no more than all
digits. -/
theorem takeDigits_le (limit n : Nat) (digits : List Char) :
    (takeDigits limit n digits).1 * 10 ^ (takeDigits limit n digits).2.2.length ≤
      extend n digits := by
  rw [← extend_taken limit n digits]
  exact mul_pow_le_extend _ _

/-- The digits that are taken stay below their limit. -/
theorem takeDigits_lt {limit n : Nat} (hn : n < limit) (digits : List Char) :
    (takeDigits limit n digits).1 < limit := by
  induction digits generalizing n with
  | nil => exact hn
  | cons c digits ih =>
    rw [takeDigits]
    split
    · rename_i h
      simp only [Bool.and_eq_true, decide_eq_true_eq] at h
      exact ih h.2
    · exact hn

/-- The first digit that is left does not fit. -/
theorem limit_le_of_left {limit n : Nat} {digits : List Char} (hd : ∀ c ∈ digits, c.isDigit = true)
    {c : Char} {left : List Char} (h : (takeDigits limit n digits).2.2 = c :: left) :
    limit ≤ (takeDigits limit n digits).1 * 10 + Text.digitValue c := by
  induction digits generalizing n with
  | nil => cases h
  | cons d digits ih =>
    rw [takeDigits] at h ⊢
    split at h
    · rename_i hfit
      rw [if_pos hfit]
      exact ih (fun e he => hd e (List.mem_cons_of_mem d he)) h
    · rename_i hfit
      obtain ⟨rfl, -⟩ := List.cons.inj h
      rw [if_neg hfit]
      simp only [hd d List.mem_cons_self, Bool.true_and, decide_eq_true_eq] at hfit
      exact Nat.not_lt.1 hfit

/-- What is taken stays below the next number with a zero for each digit taken. -/
theorem takeDigits_lt_succ (limit n : Nat) {digits : List Char}
    (hd : ∀ c ∈ digits, c.isDigit = true) :
    (takeDigits limit n digits).1 < (n + 1) * 10 ^ (takeDigits limit n digits).2.1 := by
  induction digits generalizing n with
  | nil => exact Nat.lt_of_lt_of_eq (Nat.lt_succ_self n) (Nat.mul_one _).symm
  | cons c digits ih =>
    have hv := digitValue_lt (hd c List.mem_cons_self)
    rw [takeDigits]
    split
    · calc (takeDigits limit (n * 10 + Text.digitValue c) digits).1
          < (n * 10 + Text.digitValue c + 1) *
              10 ^ (takeDigits limit (n * 10 + Text.digitValue c) digits).2.1 :=
            ih _ (fun d h => hd d (List.mem_cons_of_mem c h))
        _ ≤ ((n + 1) * 10) * 10 ^ (takeDigits limit (n * 10 + Text.digitValue c) digits).2.1 :=
            Nat.mul_le_mul_right _ (by omega)
        _ = (n + 1) * 10 ^ ((takeDigits limit (n * 10 + Text.digitValue c) digits).2.1 + 1) := by
            rw [Nat.pow_succ]
            ac_rfl
    · exact Nat.lt_of_lt_of_eq (Nat.lt_succ_self n) (Nat.mul_one _).symm

/-! ## Numbers below the border -/

namespace NumberText

/-- The digits of a number in front of its exponent. -/
def digits (n : NumberText) : List Char :=
  n.whole ++ n.fraction.getD []

/-- The exponent of a number, zero where none is written. -/
def exponentValue (n : NumberText) : Int :=
  match n.exponent with
  | none => 0
  | some e =>
    if e.sign = ['-'] then -(numeral 10 e.digits : Int) else numeral 10 e.digits

/-- The power of ten that all digits of a number are multiplied by. -/
def power (n : NumberText) : Int :=
  n.exponentValue - (n.fraction.getD []).length

/-- The magnitude that is written, as a numerator and a denominator. -/
def ratio (n : NumberText) : Nat × Nat :=
  (numeral 10 n.digits * tenTo n.power.toNat, tenTo (-n.power).toNat)

theorem isDigit_of_fraction (n : NumberText) :
    ∀ c ∈ n.fraction.getD [], c.isDigit = true := by
  cases hf : n.fraction with
  | none =>
    intro c hc
    cases hc
  | some fraction => exact (n.fraction_ok fraction hf).2

/-- All digits are those of the fraction after the whole ones. -/
theorem numeral_digits (n : NumberText) :
    numeral 10 n.digits = extend (extend 0 n.whole) (n.fraction.getD []) := by
  have hall : ∀ c ∈ n.digits, c.isDigit = true := by
    intro c hc
    rcases List.mem_append.1 hc with hc | hc
    · exact n.whole_ok.2 c hc
    · exact n.isDigit_of_fraction c hc
  rw [numeral_eq hall, digits]
  unfold extend
  rw [List.foldl_append]

/-- The significant digits of a number and the power that belongs to them. -/
theorem significant_eq (n : NumberText) : n.significant =
    ((takeDigits (twoTo 64) n.wholeDigits.1 (n.fraction.getD [])).1,
      (n.wholeDigits.2.2.length : Int) -
        (takeDigits (twoTo 64) n.wholeDigits.1 (n.fraction.getD [])).2.1) := by
  cases hf : n.fraction with
  | none =>
    rw [significant, hf]
    exact Prod.ext rfl (Int.sub_zero _).symm
  | some fraction => exact significant_of_fraction hf

/-- The significant digits fit into 64 bits. -/
theorem significant_lt (n : NumberText) : n.significant.1 < 2 ^ 64 := by
  rw [n.significant_eq]
  have hwhole : n.wholeDigits.1 < twoTo 64 := takeDigits_lt (by decide) n.whole
  exact takeDigits_lt hwhole _

/-- The first digits with a zero for each other one are at most twice all digits: they may have
gained a digit of the fraction where a whole one was dropped. -/
theorem significant_le (n : NumberText) :
    ∃ k : Nat, n.significant.2 + (n.fraction.getD []).length = k ∧
      n.significant.1 * 10 ^ k ≤ 2 * numeral 10 n.digits := by
  rw [n.significant_eq, n.numeral_digits]
  have hwhole : n.wholeDigits.1 * 10 ^ n.wholeDigits.2.2.length ≤ extend 0 n.whole :=
    takeDigits_le (twoTo 64) 0 n.whole
  have hleft : ∀ c left, n.wholeDigits.2.2 = c :: left →
      twoTo 64 ≤ n.wholeDigits.1 * 10 + Text.digitValue c :=
    fun c left h => limit_le_of_left n.whole_ok.2 h
  have hdigits : ∀ c ∈ n.wholeDigits.2.2, c.isDigit = true := isDigit_of_left _ _ n.whole_ok.2
  have hcount := takeDigits_count (twoTo 64) n.wholeDigits.1 (n.fraction.getD [])
  have hfraction := takeDigits_le (twoTo 64) n.wholeDigits.1 (n.fraction.getD [])
  have hsucc := takeDigits_lt_succ (twoTo 64) n.wholeDigits.1 n.isDigit_of_fraction
  generalize takeDigits (twoTo 64) n.wholeDigits.1 (n.fraction.getD []) = taken
    at hcount hfraction hsucc ⊢
  generalize n.wholeDigits = whole at hwhole hleft hdigits hfraction hsucc ⊢
  obtain ⟨digits, count, left⟩ := taken
  obtain ⟨m, _, dropped⟩ := whole
  dsimp only at hwhole hleft hdigits hcount hfraction hsucc ⊢
  refine ⟨dropped.length + left.length, by omega, ?_⟩
  cases dropped with
  -- no whole digit was dropped: what was taken are the first digits of all
  | nil =>
    have hm : m ≤ extend 0 n.whole := by simpa using hwhole
    calc digits * 10 ^ (0 + left.length) = digits * 10 ^ left.length := by rw [Nat.zero_add]
      _ ≤ extend m (n.fraction.getD []) := hfraction
      _ ≤ extend (extend 0 n.whole) (n.fraction.getD []) := extend_mono hm _
      _ ≤ 2 * extend (extend 0 n.whole) (n.fraction.getD []) := by omega
  -- a whole digit was dropped, and one of the fraction may have been taken in its place
  | cons c dropped =>
    have hm : 1 ≤ m := by
      have hlimit := hleft c dropped rfl
      have hlarge : 20 ≤ twoTo 64 := by decide
      have hv := digitValue_lt (hdigits c List.mem_cons_self)
      omega
    generalize (c :: dropped).length = k at hwhole ⊢
    calc digits * 10 ^ (k + left.length)
        ≤ ((m + 1) * 10 ^ count) * 10 ^ (k + left.length) :=
          Nat.mul_le_mul_right _ (Nat.le_of_lt hsucc)
      _ ≤ ((2 * m) * 10 ^ count) * 10 ^ (k + left.length) :=
          Nat.mul_le_mul_right _ (Nat.mul_le_mul_right _ (by omega))
      _ = 2 * ((m * 10 ^ k) * 10 ^ (count + left.length)) := by ring
      _ ≤ 2 * (extend 0 n.whole * 10 ^ (n.fraction.getD []).length) := by
          rw [hcount]
          exact Nat.mul_le_mul_left 2 (Nat.mul_le_mul_right _ hwhole)
      _ ≤ 2 * extend (extend 0 n.whole) (n.fraction.getD []) :=
          Nat.mul_le_mul_left 2 (mul_pow_le_extend ..)

/-- A number that is written below `10 ^ k`. -/
def Below (n : NumberText) (k : Nat) : Prop :=
  n.ratio.1 < tenTo k * n.ratio.2

/-- A number lies below a power of ten if it does so without fractions. -/
theorem below_iff {n : NumberText} {k : Nat} :
    n.Below k ↔
      numeral 10 n.digits * 10 ^ n.power.toNat < 10 ^ k * 10 ^ (-n.power).toNat :=
  Iff.rfl

/-- The first digits of a number below the border are held with every power of ten. -/
theorem scale_significant {n : NumberText} {border : Nat} (hborder : 2 * 10 ^ border ≤ 2 ^ 1021)
    (h : n.Below border) :
    ∃ z, scale n.significant.1 (n.significant.2 + n.exponentValue) = some z := by
  obtain ⟨k, hk, hle⟩ := n.significant_le
  have hlt := below_iff.1 h
  have hp : n.significant.2 + n.exponentValue = k + n.power := by
    unfold power
    omega
  rw [hp]
  apply scale_of_lt n.significant_lt
  intro hpos
  -- a negative power stands on the other side, so both sides are multiplied by it
  have hpow : (k + n.power).toNat + (-n.power).toNat = k + n.power.toNat := by omega
  apply Nat.lt_of_mul_lt_mul_right (a := 10 ^ (-n.power).toNat)
  calc n.significant.1 * 10 ^ (k + n.power).toNat * 10 ^ (-n.power).toNat
      = n.significant.1 * 10 ^ k * 10 ^ n.power.toNat := by
        rw [Nat.mul_assoc, ← Nat.pow_add, hpow, Nat.pow_add, Nat.mul_assoc]
    _ ≤ 2 * numeral 10 n.digits * 10 ^ n.power.toNat := Nat.mul_le_mul_right _ hle
    _ = 2 * (numeral 10 n.digits * 10 ^ n.power.toNat) := Nat.mul_assoc ..
    _ < 2 * (10 ^ border * 10 ^ (-n.power).toNat) := Nat.mul_lt_mul_of_pos_left hlt (by decide)
    _ = 2 * 10 ^ border * 10 ^ (-n.power).toNat := by rw [Nat.mul_assoc]
    _ ≤ 2 ^ 1021 * 10 ^ (-n.power).toNat := Nat.mul_le_mul_right _ hborder

/-- Below the border no exponent has more than 31 bits, unless the fraction has nearly as many
digits. -/
theorem exponentValue_lt {n : NumberText} {border : Nat} (h : n.Below border)
    (hf : (n.fraction.getD []).length + border ≤ twoTo 31) (hne : n.significant.1 ≠ 0) :
    n.exponentValue < twoTo 31 := by
  obtain ⟨k, -, hle⟩ := n.significant_le
  have hlt := below_iff.1 h
  have hpos : 0 < numeral 10 n.digits := by
    have : 0 < n.significant.1 * 10 ^ k :=
      Nat.mul_pos (Nat.pos_of_ne_zero hne) (Nat.pow_pos (by decide))
    omega
  apply Int.not_le.1
  intro hlarge
  -- with such an exponent even the number 1 lies above the border
  have hp : (border : Int) ≤ n.power := by
    unfold power
    omega
  rw [show (-n.power).toNat = 0 by omega, Nat.pow_zero, Nat.mul_one] at hlt
  have hpow : 10 ^ border ≤ numeral 10 n.digits * 10 ^ n.power.toNat := by
    calc 10 ^ border ≤ 10 ^ n.power.toNat := Nat.pow_le_pow_right (by decide) (by omega)
      _ ≤ numeral 10 n.digits * 10 ^ n.power.toNat := Nat.le_mul_of_pos_left _ hpos
  exact absurd hlt (Nat.not_lt.2 hpow)

/-- A number below a border that is not too high has a magnitude. -/
theorem magnitude_of_below {n : NumberText} {border : Nat} (hborder : 2 * 10 ^ border ≤ 2 ^ 1021)
    (h : n.Below border) (hf : (n.fraction.getD []).length + border ≤ twoTo 31) :
    ∃ z, n.magnitude? = some z := by
  have hscale := scale_significant hborder h
  have hlarge := exponentValue_lt h hf
  unfold magnitude?
  unfold exponentValue at hscale hlarge
  cases he : n.exponent with
  | none =>
    rw [he] at hscale
    simpa using hscale
  | some e =>
    rw [he] at hscale hlarge
    dsimp only at hscale hlarge ⊢
    rw [numeral_eq e.digits_ok.2, ← extend_taken (twoTo 31)] at hscale hlarge
    have hleft : ∀ c left, (takeDigits (twoTo 31) 0 e.digits).2.2 = c :: left → _ :=
      fun c left => limit_le_of_left e.digits_ok.2
    generalize takeDigits (twoTo 31) 0 e.digits = taken at hscale hlarge hleft ⊢
    obtain ⟨exponent, _, left⟩ := taken
    cases left with
    -- all digits of the exponent were taken
    | nil =>
      have hvalue : extend exponent [] = exponent := rfl
      dsimp only at hscale ⊢
      rw [hvalue] at hscale
      by_cases hdown : e.sign = ['-']
      · rw [if_pos hdown] at hscale ⊢
        exact hscale
      · rw [if_neg hdown] at hscale ⊢
        exact hscale
    -- a digit too many: the exponent has more than 31 bits, so it has to be a negative one
    | cons c left =>
      have hover : twoTo 31 ≤ extend exponent (c :: left) := by
        rw [extend_cons]
        calc twoTo 31 ≤ exponent * 10 + Text.digitValue c := hleft c left rfl
          _ ≤ (exponent * 10 + Text.digitValue c) * 10 ^ left.length :=
            Nat.le_mul_of_pos_right _ (Nat.pow_pos (by decide))
          _ ≤ extend (exponent * 10 + Text.digitValue c) left := mul_pow_le_extend ..
      dsimp only
      rw [if_neg]
      · exact ⟨_, rfl⟩
      · rintro ⟨hne, hdown⟩
        have hlt := hlarge hne
        rw [if_neg hdown] at hlt
        exact absurd (Int.ofNat_lt.1 hlt) (Nat.not_lt.2 hover)

/-- A number below `10 ^ 307` is read, unless its fraction has some two thousand million digits. -/
theorem number_of_below {n : NumberText} (h : n.Below 307)
    (hf : (n.fraction.getD []).length + 307 ≤ twoTo 31) : ∃ number, n.number = .ok number := by
  obtain ⟨z, hz⟩ := magnitude_of_below (by decide +kernel) h hf
  have hwhole : n.wholeDigits.1 < twoTo 64 := takeDigits_lt (by decide) n.whole
  have hborder : 2 ^ 64 ≤ 2 ^ 1021 := by decide +kernel
  have hscale : ∃ y, scale n.wholeDigits.1 0 = some y := by
    apply scale_of_lt hwhole
    intro _
    rw [Int.toNat_zero, Nat.pow_zero, Nat.mul_one]
    exact Nat.lt_of_lt_of_le hwhole hborder
  obtain ⟨y, hy⟩ := hscale
  unfold number
  rw [hz, hy]
  split
  · split
    · exact ⟨_, rfl⟩
    · split
      · exact ⟨_, rfl⟩
      · exact ⟨_, rfl⟩
  · exact ⟨_, rfl⟩

end NumberText

end BrokerAgent.Json
