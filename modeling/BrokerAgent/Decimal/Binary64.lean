/-!
# Double precision numbers

The finite numbers of the binary64 format, without their sign, as `significand · 2 ^ exponent`,
and the rounding that every operation ends with: to the nearest such number, and of two equally
near ones to the one with an even significand. `ofRatio` is that rounding; a product and a
quotient are its value at the exact result.
-/

namespace BrokerAgent

/-- A power of two. -/
def twoTo (n : Nat) : Nat := Nat.pow 2 n

/-- A power of ten. -/
def tenTo (n : Nat) : Nat := Nat.pow 10 n

/-- A magnitude `significand · 2 ^ exponent` of the format. -/
structure Binary64 where
  significand : Nat
  exponent : Int
deriving DecidableEq, Repr

namespace Binary64

/-- Zero. -/
def zero : Binary64 := ⟨0, -1074⟩

/-- Nothing but zero has the significand zero. -/
def isZero (x : Binary64) : Bool :=
  x.significand = 0

/-- The value as a numerator and a denominator. -/
def ratio (x : Binary64) : Nat × Nat :=
  if 0 ≤ x.exponent then (x.significand * twoTo x.exponent.toNat, 1)
  else (x.significand, twoTo (-x.exponent).toNat)

/-- The whole number nearest to `num / den`, an exact half going to the even neighbour. -/
def roundHalfEven (num den : Nat) : Nat :=
  let floor := num / den
  let twice := 2 * (num % den)
  if twice < den then floor
  else if den < twice then floor + 1
  else floor + floor % 2

/-- The exponent of the leading binary digit of `num / den`, for a positive ratio. -/
def leading (num den : Nat) : Int :=
  let guess : Int := (Nat.log2 num : Int) - (Nat.log2 den : Int)
  let reached : Bool :=
    if 0 ≤ guess then den * twoTo guess.toNat ≤ num else den ≤ num * twoTo (-guess).toNat
  if reached then guess else guess - 1

/-- The number of the format nearest to `num / den`; `none` when that lies above all of them. -/
def ofRatio (num den : Nat) : Option Binary64 :=
  if num = 0 then some zero
  else
    let exponent := max (leading num den - 52) (-1074)
    let rounded :=
      if 0 ≤ exponent then roundHalfEven num (den * twoTo exponent.toNat)
      else roundHalfEven (num * twoTo (-exponent).toNat) den
    let (significand, exponent) :=
      if rounded = twoTo 53 then (twoTo 52, exponent + 1) else (rounded, exponent)
    if 971 < exponent then none else some ⟨significand, exponent⟩

/-- The number of the format nearest to a whole number. -/
def ofNat (n : Nat) : Option Binary64 :=
  ofRatio n 1

/-- The rounded product. -/
def mul (x y : Binary64) : Option Binary64 :=
  ofRatio (x.ratio.1 * y.ratio.1) (x.ratio.2 * y.ratio.2)

/-- The rounded quotient by a number other than zero. -/
def div (x y : Binary64) : Option Binary64 :=
  ofRatio (x.ratio.1 * y.ratio.2) (x.ratio.2 * y.ratio.1)

/-- The number of the format nearest to `digits · 10 ^ power`, rounded once. Powers far outside
the format's range are settled by their size, so that no huge number is ever built. -/
def ofDecimal (digits : Nat) (power : Int) : Option Binary64 :=
  let size : Int := (Nat.toDigits 10 digits).length
  if digits = 0 then some zero
  else if 400 < size + power then none
  else if size + power < -400 then some zero
  else if 0 ≤ power then ofRatio (digits * tenTo power.toNat) 1
  else ofRatio digits (tenTo (-power).toNat)

end Binary64
end BrokerAgent
