import BrokerAgent.Proofs.Text.Quoted
import BrokerAgent.Toml.Scalar

/-!
# No control characters in values without parts

Whatever reads a number, a truth value or a date passes over signs that print. Each reader is taken
by itself (`Passes`), so what a value is written with has no control character in it
(`noControl_of_readScalar`), unless the value is a text.
-/

namespace BrokerAgent.Toml

open Text (isControl NoControl isControl_of_le isControl_of_isDigit)

/-- The rest of a text behind some characters of which none is a control character. -/
def Passes (s rest : List Char) : Prop :=
  ∃ t, NoControl t ∧ s = t ++ rest

namespace Passes

theorem refl (s : List Char) : Passes s s :=
  ⟨[], by decide, rfl⟩

theorem trans {s t u : List Char} : Passes s t → Passes t u → Passes s u := by
  rintro ⟨a, ha, rfl⟩ ⟨b, hb, rfl⟩
  exact ⟨a ++ b, Text.noControl_append.2 ⟨ha, hb⟩, (List.append_assoc a b u).symm⟩

/-- One more character may stand in front if it is no control character. -/
theorem cons {c : Char} {s rest : List Char} (hc : isControl c = false) :
    Passes s rest → Passes (c :: s) rest := by
  rintro ⟨t, ht, rfl⟩
  exact ⟨c :: t, List.forall_mem_cons.2 ⟨hc, ht⟩, rfl⟩

/-- What is dropped is passed over if it has no control characters. -/
theorem dropWhile {accepts : Char → Bool} (h : ∀ c, accepts c = true → isControl c = false)
    (s : List Char) : Passes s (s.dropWhile accepts) :=
  ⟨s.takeWhile accepts, fun c hc => h c (List.all_eq_true.1 List.all_takeWhile c hc),
    List.takeWhile_append_dropWhile.symm⟩

end Passes

/-- A hexadecimal digit is no control character. -/
theorem isControl_of_hexDigit? {c : Char} (h : (Text.hexDigit? c).isSome = true) :
    isControl c = false := by
  unfold Text.hexDigit? at h
  split at h
  · exact isControl_of_isDigit ‹_›
  split at h
  · rename_i hletter
    exact isControl_of_le (Char.le_trans (by decide) hletter.1)
      (Char.le_trans hletter.2 (by decide))
  split at h
  · rename_i hletter
    exact isControl_of_le (Char.le_trans (by decide) hletter.1)
      (Char.le_trans hletter.2 (by decide))
  · cases h

section

variable {s rest : List Char}

/-! ## Digits and words -/

/-- Digits with underscores are passed over. -/
theorem passes_of_readDigits {accepts : Char → Bool} {digits : List Char}
    (haccepts : ∀ c, accepts c = true → isControl c = false)
    (h : readDigits accepts s = some (digits, rest)) : Passes s rest := by
  have hunderscore : isControl '_' = false := by decide
  fun_induction readDigits accepts s generalizing digits <;> grind [Passes.refl, Passes.cons]

/-- So are digits of a given number. -/
theorem passes_of_readFixed {n count m : Nat} (h : readFixed n count s = some (m, rest)) :
    Passes s rest := by
  fun_induction readFixed n count s <;> grind [Passes.refl, Passes.cons, isControl_of_isDigit]

/-- So is a given character. -/
theorem passes_of_readChar {c : Char} (hc : isControl c = false) (h : readChar c s = some rest) :
    Passes s rest := by
  unfold readChar at h
  grind [Passes.refl, Passes.cons]

/-- So is a given word. -/
theorem passes_of_readWord {letters : List Char} (hletters : NoControl letters)
    (h : readWord letters s = some rest) : Passes s rest := by
  fun_induction readWord letters s <;> grind [Passes.refl, Passes.cons, NoControl]

/-! ## Dates and times -/

/-- A day is passed over. -/
theorem passes_of_readDay (h : readDay s = some rest) : Passes s rest := by
  have hminus : isControl '-' = false := by decide
  simp only [readDay, Option.bind_eq_bind, Option.bind_eq_some_iff, Prod.exists] at h
  obtain ⟨year, s₁, hyear, s₂, h₁, month, s₃, hmonth, s₄, h₂, day, s₅, hday, h⟩ := h
  have hpasses := (passes_of_readFixed hyear).trans <| (passes_of_readChar hminus h₁).trans <|
    (passes_of_readFixed hmonth).trans <| (passes_of_readChar hminus h₂).trans <|
    passes_of_readFixed hday
  split at h
  · cases h
    exact hpasses
  · cases h

/-- So is a fraction of a second. -/
theorem passes_skipSecondFraction (s : List Char) : Passes s (skipSecondFraction s) := by
  unfold skipSecondFraction
  split
  · split
    · rename_i hc
      exact .cons (by decide) (.cons (isControl_of_isDigit hc)
        (.dropWhile (fun _ => isControl_of_isDigit) _))
    · exact .refl _
  · exact .refl _

/-- So are hours and minutes. -/
theorem passes_of_readMinutes (h : readMinutes s = some rest) : Passes s rest := by
  simp only [readMinutes, Option.bind_eq_bind, Option.bind_eq_some_iff, Prod.exists] at h
  obtain ⟨hour, s₁, hhour, s₂, h₁, minute, s₃, hminute, h⟩ := h
  have hpasses := (passes_of_readFixed hhour).trans <|
    (passes_of_readChar (by decide) h₁).trans <| passes_of_readFixed hminute
  split at h
  · cases h
    exact hpasses
  · cases h

/-- So is a time of the day. -/
theorem passes_of_readTime (h : readTime s = some rest) : Passes s rest := by
  simp only [readTime, Option.bind_eq_bind, Option.bind_eq_some_iff, Prod.exists] at h
  obtain ⟨s₁, hminutes, s₂, h₁, second, s₃, hsecond, h⟩ := h
  have hpasses := (passes_of_readMinutes hminutes).trans <|
    (passes_of_readChar (by decide) h₁).trans <| passes_of_readFixed hsecond
  split at h
  · cases h
    exact hpasses.trans (passes_skipSecondFraction _)
  · cases h

/-- So is an offset. -/
theorem passes_skipOffset (s : List Char) : Passes s (skipOffset s) := by
  have hoffset : ∀ {c s}, isControl c = false →
      Passes (c :: s) ((readMinutes s).getD (c :: s)) := by
    intro c s hc
    cases hs : readMinutes s with
    | none => exact .refl _
    | some rest => exact .cons hc (passes_of_readMinutes hs)
  unfold skipOffset
  split
  · exact .cons (by decide) (.refl _)
  · exact .cons (by decide) (.refl _)
  · exact hoffset (by decide)
  · exact hoffset (by decide)
  · exact .refl _

/-- So is a moment. -/
theorem passes_of_readMoment (h : readMoment s = some rest) : Passes s rest := by
  unfold readMoment at h
  split at h
  · exact passes_of_readTime h
  · rename_i hday
    have hpasses := passes_of_readDay hday
    split at h
    · cases h
      exact hpasses
    · rename_i c time
      split at h
      · rename_i hc
        have hseparator : isControl c = false := by
          simp only [isDayTimeSeparator, Bool.or_eq_true, decide_eq_true_eq] at hc
          obtain (rfl | rfl) | rfl := hc <;> rfl
        split at h
        · rename_i htime
          cases h
          exact hpasses.trans (.cons hseparator ((passes_of_readTime htime).trans
            (passes_skipOffset _)))
        · cases h
          exact hpasses
      · cases h
        exact hpasses

/-! ## Numbers -/

/-- A sign is passed over. -/
theorem passes_readSign (s : List Char) : Passes s (readSign s).2 := by
  unfold readSign
  split
  · exact .cons (by decide) (.refl _)
  · exact .cons (by decide) (.refl _)
  · exact .refl _

/-- So are the digits before the point. -/
theorem passes_of_readWhole {digits : List Char} (h : readWhole s = some (digits, rest)) :
    Passes s rest := by
  unfold readWhole at h
  split at h
  · cases h
    exact .cons (by decide) (.refl _)
  · exact passes_of_readDigits (fun _ => isControl_of_isDigit) h

/-- So is an exponent behind its letter. -/
theorem passes_of_readPower {power : Int} (h : readPower s = some (power, rest)) :
    Passes s rest := by
  unfold readPower at h
  dsimp only at h
  split at h
  · cases h
  · rename_i hdigits
    cases h
    exact (passes_readSign s).trans (passes_of_readDigits (fun _ => isControl_of_isDigit) hdigits)

/-- So is all that follows the digits. -/
theorem passes_of_finishNumber {negative : Bool} {digits : List Char} {places : Nat} {v : Scalar}
    (h : finishNumber negative digits places s = some (v, rest)) : Passes s rest := by
  unfold finishNumber at h
  split at h
  · rename_i hstart
    simp only [Option.bind_eq_bind, Option.bind_eq_some_iff, Prod.exists] at h
    obtain ⟨power, after, hpower, v', -, h⟩ := h
    cases h
    have hmark : Passes s (s.drop 1) := by
      unfold startsExponent at hstart
      split at hstart
      · exact .cons (by decide) (.refl _)
      · exact .cons (by decide) (.refl _)
      · cases hstart
    exact hmark.trans (passes_of_readPower hpower)
  · simp only [Option.bind_eq_bind, Option.bind_eq_some_iff] at h
    obtain ⟨v', -, h⟩ := h
    cases h
    exact .refl _

/-- A decimal number is passed over. -/
theorem passes_of_readDecimal {negative : Bool} {v : Scalar}
    (h : readDecimal negative s = some (v, rest)) : Passes s rest := by
  unfold readDecimal at h
  split at h
  · cases h
  · rename_i hwhole
    split at h
    · cases h
    · rename_i hplaces
      exact (passes_of_readWhole hwhole).trans (.cons (by decide)
        ((passes_of_readDigits (fun _ => isControl_of_isDigit) hplaces).trans
          (passes_of_finishNumber h)))
  · rename_i hwhole
    split at h
    · exact (passes_of_readWhole hwhole).trans (passes_of_finishNumber h)
    · simp only [Option.map_eq_some_iff, Prod.mk.injEq] at h
      obtain ⟨v', -, -, rfl⟩ := h
      exact passes_of_readWhole hwhole

/-- So is a number in another base. -/
theorem passes_of_readBased {base : Nat} {accepts : Char → Bool} {v : Scalar}
    (haccepts : ∀ c, accepts c = true → isControl c = false)
    (h : readBased base accepts s = some (v, rest)) : Passes s rest := by
  simp only [readBased, Option.bind_eq_bind, Option.bind_eq_some_iff, Prod.exists] at h
  obtain ⟨digits, after, hdigits, v', -, h⟩ := h
  cases h
  exact passes_of_readDigits haccepts hdigits

/-- The infinities and what is no number are words behind a sign. -/
theorem passes_of_map_readWord {letters : List Char} {v v' : Scalar} (hletters : NoControl letters)
    (h : (readWord letters s).map (v', ·) = some (v, rest)) : Passes s rest := by
  simp only [Option.map_eq_some_iff, Prod.mk.injEq] at h
  obtain ⟨after, hword, -, rfl⟩ := h
  exact passes_of_readWord hletters hword

/-- Every number is passed over. -/
theorem passes_of_readNumber {v : Scalar} (h : readNumber s = some (v, rest)) : Passes s rest := by
  have hbased : ∀ {base accepts c s}, (∀ c, accepts c = true → isControl c = false) →
      isControl c = false → readBased base accepts s = some (v, rest) →
        Passes ('0' :: c :: s) rest :=
    fun haccepts hc h => .cons (by decide) (.cons hc (passes_of_readBased haccepts h))
  unfold readNumber at h
  split at h
  · exact hbased (fun _ => isControl_of_hexDigit?) (by decide) h
  · refine hbased (fun c hc => ?_) (by decide) h
    simp only [Bool.and_eq_true, decide_eq_true_eq] at hc
    exact isControl_of_le (Char.le_trans (by decide) hc.1) (Char.le_trans hc.2 (by decide))
  · refine hbased (fun c hc => ?_) (by decide) h
    simp only [Bool.or_eq_true, decide_eq_true_eq] at hc
    obtain rfl | rfl := hc <;> rfl
  · refine (passes_readSign s).trans ?_
    split at h
    rename_i hsign
    rw [hsign]
    dsimp only
    split at h
    · exact .cons (by decide) (passes_of_map_readWord (by decide) h)
    · exact .cons (by decide) (passes_of_map_readWord (by decide) h)
    · exact passes_of_readDecimal h

/-! ## All of them -/

/-- A value that is no text is written without control characters. -/
theorem passes_of_readScalar {v : Scalar} (hv : ∀ t, v ≠ .text t)
    (h : readScalar s = some (v, rest)) : Passes s rest := by
  unfold readScalar at h
  split at h
  · cases h
  · split at h
    · simp only [Option.map_eq_some_iff, Prod.exists, Prod.mk.injEq] at h
      obtain ⟨t, -, -, rfl, -⟩ := h
      exact absurd rfl (hv t)
    split at h
    · split at h
      · rename_i hmoment
        cases h
        exact passes_of_readMoment hmoment
      · exact passes_of_readNumber h
    split at h
    · subst_vars
      exact .cons (by decide) (passes_of_map_readWord (by decide) h)
    split at h
    · subst_vars
      exact .cons (by decide) (passes_of_map_readWord (by decide) h)
    split at h
    · exact passes_of_readNumber h
    · cases h

/-- So no control character stands in what such a value is written with. -/
theorem noControl_of_readScalar {v : Scalar} (hv : ∀ t, v ≠ .text t)
    (h : readScalar (s ++ rest) = some (v, rest)) : NoControl s := by
  obtain ⟨t, ht, hs⟩ := passes_of_readScalar hv h
  rwa [List.append_cancel_right hs]

end

end BrokerAgent.Toml
