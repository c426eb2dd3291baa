import BrokerAgent.Json.Number
import BrokerAgent.Proofs.Json.Grammar

/-!
# Numbers are read as they are written

Passing over a number ends behind its last character (`skipNumber_written`). Reading one gives what
`NumberText.number` says (`readNumber_written`): an integer if it is written as one and 64 bits hold
it, otherwise its first digits times a power of ten. A number is not closed by anything, so both
laws ask what follows it not to continue it.
-/

namespace BrokerAgent.Json

/-- What a reading comes to: a value and the text after it, or the cause of a fault, wherever it is
reported. -/
def Reading.ComesTo {α : Type} (reading : Reading α) (result : Except Cause α)
    (rest : List Char) : Prop :=
  match result with
  | .ok a => reading = .ok (a, rest)
  | .error cause => ∃ mark, reading = .error ⟨cause, mark⟩

/-- A text that does not continue a number. -/
def Delimited (s : List Char) : Prop :=
  ∀ c ∈ s.head?, c.isDigit = false ∧ c ≠ '.' ∧ c ≠ 'e' ∧ c ≠ 'E'

/-! ## Rows of digits -/

theorem startsWithDigit_append {digits : List Char} (hd : Digits digits) (s : List Char) :
    startsWithDigit (digits ++ s) = true := by
  obtain ⟨c, digits, rfl, hc, -⟩ := hd.exists_cons
  exact hc

/-- All digits are passed over, up to what is none. -/
theorem skipDigits_append {digits s : List Char} (hd : ∀ c ∈ digits, c.isDigit = true)
    (hs : startsWithDigit s = false) : skipDigits (digits ++ s) = s := by
  rw [skipDigits, List.dropWhile_append_of_pos hd]
  cases s with
  | nil => rfl
  | cons c s => exact List.dropWhile_cons_of_neg (by rw [show c.isDigit = false from hs]; decide)

theorem ne_of_isDigit {c d : Char} (hc : c.isDigit = true) (hd : d.isDigit = false) : c ≠ d := by
  rintro rfl
  rw [hc] at hd
  cases hd

theorem digitValue_lt {c : Char} (hc : c.isDigit = true) : Text.digitValue c < 10 := by
  simp only [Char.isDigit, Bool.and_eq_true, decide_eq_true_eq, ge_iff_le, UInt32.le_iff_toNat_le]
    at hc
  have h₁ : 48 ≤ c.toNat := hc.1
  have h₂ : c.toNat ≤ 57 := hc.2
  show c.toNat - 48 < 10
  omega

/-- Taking digits ends inside a row of digits or at its end. -/
theorem takeDigits_append {limit : Nat} {digits s : List Char} (hs : startsWithDigit s = false)
    (n : Nat) : takeDigits limit n (digits ++ s) =
      ((takeDigits limit n digits).1, (takeDigits limit n digits).2.1,
        (takeDigits limit n digits).2.2 ++ s) := by
  induction digits generalizing n with
  | nil =>
    cases s with
    | nil => rfl
    | cons c s =>
      have hc : c.isDigit = false := hs
      simp [takeDigits, hc]
  | cons c digits ih =>
    rw [List.cons_append, takeDigits, takeDigits]
    split
    · rw [ih]
    · rfl

/-- The digits that are left are the last ones. -/
theorem takeDigits_left (limit n : Nat) (digits : List Char) :
    (takeDigits limit n digits).2.2 <:+ digits := by
  induction digits generalizing n with
  | nil => exact List.suffix_refl _
  | cons c digits ih =>
    rw [takeDigits]
    split
    · exact List.IsSuffix.trans (ih _) (List.suffix_cons c digits)
    · exact List.suffix_refl _

/-- Every digit is taken or left. -/
theorem takeDigits_count (limit n : Nat) (digits : List Char) :
    (takeDigits limit n digits).2.1 + (takeDigits limit n digits).2.2.length = digits.length := by
  induction digits generalizing n with
  | nil => rfl
  | cons c digits ih =>
    rw [takeDigits]
    split
    · have h := ih (n * 10 + Text.digitValue c)
      rw [List.length_cons, ← h]
      exact Nat.add_right_comm ..
    · exact Nat.zero_add _

theorem isDigit_of_left (limit n : Nat) {digits : List Char}
    (hd : ∀ c ∈ digits, c.isDigit = true) :
    ∀ c ∈ (takeDigits limit n digits).2.2, c.isDigit = true :=
  fun c hc => hd c ((takeDigits_left limit n digits).subset hc)

/-- The first digit of a row can be taken at once. -/
theorem takeDigits_cons {limit : Nat} {c : Char} (hc : c.isDigit = true) (hl : 10 ≤ limit)
    (digits : List Char) : takeDigits limit 0 (c :: digits) =
      ((takeDigits limit (Text.digitValue c) digits).1,
        (takeDigits limit (Text.digitValue c) digits).2.1 + 1,
        (takeDigits limit (Text.digitValue c) digits).2.2) := by
  have hv : Text.digitValue c < limit := Nat.lt_of_lt_of_le (digitValue_lt hc) hl
  rw [takeDigits, Nat.zero_mul, Nat.zero_add, if_pos (by simp [hc, hv])]

/-! ## Where the parts of a number end -/

/-- What ends a number begins with no digit. -/
theorem startsWithDigit_of_delimited {s : List Char} (hs : Delimited s) :
    startsWithDigit s = false := by
  cases s with
  | nil => rfl
  | cons c s => exact (hs c rfl).1

/-- The sign of an exponent is passed over. -/
theorem skipSign_exponent (e : ExponentText) (s : List Char) :
    skipSign (e.sign ++ e.digits ++ s) = e.digits ++ s := by
  rcases e.sign_eq with h | h | h
  · obtain ⟨c, digits, hd, hc, -⟩ := e.digits_ok.exists_cons
    -- a digit is no sign, so nothing is passed over
    rw [h, List.nil_append, hd]
    unfold skipSign
    split <;> simp_all
  · rw [h]
    rfl
  · rw [h]
    rfl

namespace NumberText

/-- What follows the whole digits of a number. -/
def tail (n : NumberText) : List Char :=
  n.fractionText ++ n.exponentText

/-- The parts of a number without its sign. -/
theorem unsigned_eq (n : NumberText) (s : List Char) :
    n.unsigned ++ s = n.whole ++ (n.tail ++ s) := by
  simp only [unsigned, tail, List.append_assoc]

theorem eq_nil_of_zero (n : NumberText) {digits : List Char} (hw : n.whole = '0' :: digits) :
    digits = [] := by
  have h := n.whole_zero (by rw [hw]; rfl)
  rw [hw] at h
  exact (List.cons.inj h).2

/-- The exponent does not continue the digits before it, nor does it begin with a point. -/
theorem exponentText_stops (n : NumberText) {s : List Char} (hs : Delimited s) :
    startsWithDigit (n.exponentText ++ s) = false ∧ (n.exponentText ++ s).head? ≠ some '.' := by
  unfold exponentText
  cases he : n.exponent with
  | none =>
    refine ⟨startsWithDigit_of_delimited hs, fun h => ?_⟩
    exact (hs '.' h).2.1 rfl
  | some e =>
    rcases e.mark_eq with hm | hm <;>
      simp [ExponentText.text, startsWithDigit, hm]

/-- The digits of the whole part end where its tail begins. -/
theorem startsWithDigit_tail (n : NumberText) {s : List Char} (hs : Delimited s) :
    startsWithDigit (n.tail ++ s) = false := by
  unfold tail fractionText
  cases hf : n.fraction with
  | none => exact (n.exponentText_stops hs).1
  | some digits => rfl

end NumberText

/-! ## Passing over a number -/

theorem skipExponent_of_delimited {s : List Char} (hs : Delimited s) : skipExponent s = .ok s := by
  cases s with
  | nil => rfl
  | cons c s =>
    obtain ⟨-, -, he, hE⟩ := hs c rfl
    rw [skipExponent, if_neg (by simp [he, hE])]

/-- An exponent as it is written is passed over. -/
theorem skipExponent_written (n : NumberText) {s : List Char} (hs : Delimited s) :
    skipExponent (n.exponentText ++ s) = .ok s := by
  unfold NumberText.exponentText
  cases he : n.exponent with
  | none => exact skipExponent_of_delimited hs
  | some e =>
    simp only [ExponentText.text, List.cons_append]
    rw [skipExponent, if_pos e.mark_eq, skipSign_exponent,
      if_pos (startsWithDigit_append e.digits_ok s),
      skipDigits_append e.digits_ok.2 (startsWithDigit_of_delimited hs)]

theorem skipFraction_of_head {s : List Char} (h : s.head? ≠ some '.') :
    skipFraction s = skipExponent s := by
  unfold skipFraction
  split
  · exact absurd rfl h
  · rfl

/-- Fraction and exponent are passed over as they are written. -/
theorem skipFraction_written (n : NumberText) {s : List Char} (hs : Delimited s) :
    skipFraction (n.tail ++ s) = .ok s := by
  unfold NumberText.tail NumberText.fractionText
  obtain ⟨hd, hp⟩ := n.exponentText_stops hs
  cases hf : n.fraction with
  | none =>
    rw [List.nil_append, skipFraction_of_head hp, skipExponent_written n hs]
  | some digits =>
    have hok : Digits digits := n.fraction_ok digits hf
    rw [List.cons_append, List.cons_append, List.append_assoc, skipFraction,
      if_pos (startsWithDigit_append hok _), skipDigits_append hok.2 hd, skipExponent_written n hs]

/-- Passing over a number ends behind its last character. -/
theorem skipNumber_written (n : NumberText) {s : List Char} (hs : Delimited s) :
    skipNumber (n.unsigned ++ s) = .ok s := by
  rw [n.unsigned_eq]
  have ht := n.startsWithDigit_tail hs
  obtain ⟨c, digits, hw, hc, hdigits⟩ := n.whole_ok.exists_cons
  rw [hw, List.cons_append, skipNumber]
  by_cases hz : c = '0'
  -- a leading zero stands alone
  · obtain rfl : digits = [] := n.eq_nil_of_zero (hz ▸ hw)
    rw [if_pos hz, List.nil_append, ht, if_neg Bool.false_ne_true, skipFraction_written n hs]
  · rw [if_neg hz, if_pos hc, skipDigits_append hdigits ht, skipFraction_written n hs]

/-! ## What a number is read as -/

/-- A number in double precision, unless the format has none so large. -/
def heldAs (negative : Bool) : Option Binary64 → Except Cause Number
  | some magnitude => .ok (.double negative magnitude)
  | none => .error .numberTooLarge

namespace NumberText

/-- The whole digits that 64 bits hold, how many they are, and the digits that are left. -/
def wholeDigits (n : NumberText) : Nat × Nat × List Char :=
  takeDigits (twoTo 64) 0 n.whole

/-- The first digits of a number, as many as 64 bits hold, and the power of ten that they are to be
multiplied by before the exponent is counted. -/
def significant (n : NumberText) : Nat × Int :=
  match n.fraction with
  | none => (n.wholeDigits.1, n.wholeDigits.2.2.length)
  | some fraction =>
    let taken := takeDigits (twoTo 64) n.wholeDigits.1 fraction
    (taken.1, n.wholeDigits.2.2.length - taken.2.1)

/-- The significant digits of a number that has a fraction. -/
theorem significant_of_fraction {n : NumberText} {fraction : List Char}
    (hf : n.fraction = some fraction) : n.significant =
      ((takeDigits (twoTo 64) n.wholeDigits.1 fraction).1,
        (n.wholeDigits.2.2.length : Int) -
          (takeDigits (twoTo 64) n.wholeDigits.1 fraction).2.1) := by
  rw [significant, hf]

/-- The magnitude of a number in double precision. An exponent beyond 31 bits is decided by its
sign alone. -/
def magnitude? (n : NumberText) : Option Binary64 :=
  match n.exponent with
  | none => scale n.significant.1 n.significant.2
  | some e =>
    let down := e.sign = ['-']
    match takeDigits (twoTo 31) 0 e.digits with
    | (exponent, _, []) =>
      scale n.significant.1
        (if down then n.significant.2 - exponent else n.significant.2 + exponent)
    | (_, _, _ :: _) => if n.significant.1 ≠ 0 ∧ ¬ down then none else some .zero

/-- Whether a number is written without a point and an exponent, and 64 bits hold it. -/
def isWhole (n : NumberText) : Bool :=
  n.fraction.isNone && n.exponent.isNone && n.wholeDigits.2.2.isEmpty

/-- What a number is read as. -/
def number (n : NumberText) : Except Cause Number :=
  if n.isWhole then
    if ¬ n.negative then .ok (.integer n.wholeDigits.1)
    else if n.wholeDigits.1 = 0 ∨ twoTo 63 < n.wholeDigits.1 then
      heldAs true (scale n.wholeDigits.1 0)
    else .ok (.integer (-n.wholeDigits.1))
  else heldAs n.negative n.magnitude?

end NumberText

/-! ## Reading a number -/

/-- A number with a point or an exponent comes to what its digits and power give. -/
theorem finishDouble_comesTo (negative : Bool) (digits : Nat) (power : Int) (rest : List Char) :
    (finishDouble negative digits power rest).ComesTo (heldAs negative (scale digits power))
      rest := by
  unfold finishDouble
  split
  · rename_i hs
    rw [hs]
    rfl
  · rename_i hs
    rw [hs]
    exact ⟨_, rfl⟩

/-- Where a number ends its value is worked out. -/
theorem readTail_of_delimited {s : List Char} (hs : Delimited s) (negative : Bool) (digits : Nat)
    (power : Int) : readTail negative digits power s = finishDouble negative digits power s := by
  cases s with
  | nil => rfl
  | cons c s =>
    obtain ⟨-, -, he, hE⟩ := hs c rfl
    rw [readTail, if_neg (by simp [he, hE])]

/-- The sign of an exponent is seen in front of its digits. -/
theorem head_exponent (e : ExponentText) (s : List Char) :
    ((e.sign ++ e.digits ++ s).head? = some '-') = (e.sign = ['-']) := by
  rcases e.sign_eq with h | h | h
  · obtain ⟨c, digits, hd, hc, -⟩ := e.digits_ok.exists_cons
    have hm : c ≠ '-' := ne_of_isDigit hc (by decide)
    simp [h, hd, hm]
  · simp [h]
  · simp [h]

/-- An exponent is read as it is written. -/
theorem readExponent_written {n : NumberText} {e : ExponentText} (he : n.exponent = some e)
    {s : List Char} (hs : Delimited s) :
    (readExponent n.negative n.significant.1 n.significant.2
      (e.sign ++ e.digits ++ s)).ComesTo (heldAs n.negative n.magnitude?) s := by
  have hstop := startsWithDigit_of_delimited hs
  obtain ⟨c, digits, hd, hc, hdigits⟩ := e.digits_ok.exists_cons
  have hleft := isDigit_of_left (twoTo 31) (Text.digitValue c) hdigits
  unfold readExponent NumberText.magnitude?
  rw [he, skipSign_exponent]
  simp only [head_exponent]
  simp only [hd, List.cons_append, hc, if_true, takeDigits_append hstop,
    takeDigits_cons hc (by decide : 10 ≤ twoTo 31)]
  generalize takeDigits (twoTo 31) (Text.digitValue c) digits = taken at hleft
  obtain ⟨exponent, count, left⟩ := taken
  -- reading goes on after the exponent only if all of its digits were taken
  cases left with
  | nil =>
    simp only [List.nil_append, hstop, Bool.false_eq_true, if_false]
    exact finishDouble_comesTo ..
  | cons d left =>
    have hmore : startsWithDigit (d :: left ++ s) = true := hleft d List.mem_cons_self
    simp only [hmore, if_true]
    split
    · exact ⟨_, rfl⟩
    · show _ = _
      rw [skipDigits_append hleft hstop]

/-- With or without an exponent the tail is read as it is written. -/
theorem readTail_written (n : NumberText) {s : List Char} (hs : Delimited s) :
    (readTail n.negative n.significant.1 n.significant.2 (n.exponentText ++ s)).ComesTo
      (heldAs n.negative n.magnitude?) s := by
  cases he : n.exponent with
  | none =>
    rw [NumberText.exponentText, NumberText.magnitude?, he, List.nil_append,
      readTail_of_delimited hs]
    exact finishDouble_comesTo ..
  | some e =>
    rw [NumberText.exponentText, he]
    simp only [ExponentText.text, List.cons_append]
    rw [readTail, if_pos e.mark_eq]
    exact readExponent_written he hs

/-- A fraction is read as it is written. -/
theorem readFraction_written {n : NumberText} {fraction : List Char}
    (hf : n.fraction = some fraction) {s : List Char} (hs : Delimited s) :
    (readFraction n.negative n.wholeDigits.1 n.wholeDigits.2.2.length
      (fraction ++ (n.exponentText ++ s))).ComesTo (heldAs n.negative n.magnitude?) s := by
  obtain ⟨hne, hall⟩ := n.fraction_ok fraction hf
  have hstop := (n.exponentText_stops hs).1
  have htail := readTail_written n hs
  have hleft := isDigit_of_left (twoTo 64) n.wholeDigits.1 hall
  have hcount := takeDigits_count (twoTo 64) n.wholeDigits.1 fraction
  rw [NumberText.significant_of_fraction hf] at htail
  unfold readFraction
  rw [takeDigits_append hstop]
  generalize takeDigits (twoTo 64) n.wholeDigits.1 fraction = taken at htail hleft hcount ⊢
  obtain ⟨digits, count, left⟩ := taken
  cases left with
  -- all digits were taken, and there was at least one
  | nil =>
    have hpos : count ≠ 0 := by
      have := List.length_pos_iff.2 hne
      simp only [List.length_nil, Nat.add_zero] at hcount
      omega
    simp only [List.nil_append, hstop, Bool.false_eq_true, if_false, if_neg hpos]
    exact htail
  -- digits that 64 bits cannot hold are passed over
  | cons d left =>
    have hmore : startsWithDigit (d :: left ++ (n.exponentText ++ s)) = true :=
      hleft d List.mem_cons_self
    simp only [hmore, if_true]
    rw [skipDigits_append hleft hstop]
    exact htail

/-- Digits without point and exponent are an integer if it is not too large. -/
theorem ofInteger_comesTo (negative : Bool) (digits : Nat) (rest : List Char) :
    (ofInteger negative digits rest).ComesTo
      (if ¬ negative then .ok (.integer digits)
        else if digits = 0 ∨ twoTo 63 < digits then heldAs true (scale digits 0)
        else .ok (.integer (-digits))) rest := by
  unfold ofInteger
  split
  · rfl
  · split
    · exact finishDouble_comesTo ..
    · rfl

/-- What follows the whole digits is read as it is written. -/
theorem readRest_written (n : NumberText) {s : List Char} (hs : Delimited s) :
    (readRest n.negative n.wholeDigits.1 n.wholeDigits.2.2.length (n.tail ++ s)).ComesTo
      n.number s := by
  cases hf : n.fraction with
  | some fraction =>
    rw [NumberText.tail, NumberText.fractionText, NumberText.number, NumberText.isWhole, hf]
    simp only [List.cons_append, List.append_assoc]
    exact readFraction_written hf hs
  | none =>
    cases he : n.exponent with
    | some e =>
      have hr := readExponent_written he hs
      rw [NumberText.tail, NumberText.fractionText, NumberText.exponentText, NumberText.number,
        NumberText.isWhole, hf, he]
      rw [NumberText.significant, hf] at hr
      simp only [ExponentText.text, List.nil_append, List.cons_append]
      rw [readRest, if_pos e.mark_eq]
      · exact hr
      · rcases e.mark_eq with hm | hm <;> simp [hm]
    -- whole digits only: an integer if none of them was dropped
    | none =>
      have hd := finishDouble_comesTo n.negative n.wholeDigits.1 n.wholeDigits.2.2.length s
      have hi := ofInteger_comesTo n.negative n.wholeDigits.1 s
      have hr : readRest n.negative n.wholeDigits.1 n.wholeDigits.2.2.length s =
          if n.wholeDigits.2.2.length = 0 then ofInteger n.negative n.wholeDigits.1 s
          else finishDouble n.negative n.wholeDigits.1 n.wholeDigits.2.2.length s := by
        cases s with
        | nil => rfl
        | cons c s =>
          obtain ⟨-, hp, he, hE⟩ := hs c rfl
          rw [readRest.eq_def]
          split
          · simp_all
          · rename_i heq
            obtain ⟨rfl, rfl⟩ := List.cons.inj heq
            rw [if_neg (by simp [he, hE])]
          · contradiction
      rw [NumberText.tail, NumberText.fractionText, NumberText.exponentText, hf, he,
        List.nil_append, List.nil_append, hr, NumberText.number, NumberText.isWhole, hf, he]
      cases hleft : n.wholeDigits.2.2 with
      | nil => exact hi
      | cons d left =>
        rw [hleft] at hd
        rw [if_neg (by simp), if_neg (by simp), NumberText.magnitude?, he, NumberText.significant,
          hf, hleft]
        exact hd

/-- A number is read as what it is written as. -/
theorem readNumber_written (n : NumberText) {s : List Char} (hs : Delimited s) :
    (readNumber n.negative (n.unsigned ++ s)).ComesTo n.number s := by
  rw [n.unsigned_eq]
  have htail := n.startsWithDigit_tail hs
  have hrest := readRest_written n hs
  obtain ⟨c, digits, hw, hc, hdigits⟩ := n.whole_ok.exists_cons
  rw [NumberText.wholeDigits, hw] at hrest
  rw [hw, List.cons_append, readNumber]
  by_cases hz : c = '0'
  · subst hz
    obtain rfl : digits = [] := n.eq_nil_of_zero hw
    rw [if_pos rfl, List.nil_append, htail, if_neg Bool.false_ne_true]
    exact hrest
  -- the digits that were not taken are counted by what is passed over
  · have hleft := isDigit_of_left (twoTo 64) (Text.digitValue c) hdigits
    rw [takeDigits_cons hc (by decide)] at hrest
    rw [if_neg hz, if_pos hc, takeDigits_append htail]
    dsimp only
    rw [skipDigits_append hleft htail, List.length_append, Nat.add_sub_cancel]
    exact hrest

end BrokerAgent.Json
