import BrokerAgent.Decimal.Binary64

/-!
# The shortest decimal form of a number

A number of the binary64 format stands for all reals that round to it. `shortest` gives the
decimal with the fewest digits among those reals, and of several such the one nearest to the
number itself. Two ways to write it down follow: `Style.plain`, always with a point, and
`Style.scientific`, which changes to a power of ten for very large and very small numbers.
-/

namespace BrokerAgent

/-- The decimal `digits · 10 ^ power`. -/
structure Decimal where
  digits : Nat
  power : Int
deriving DecidableEq, Repr

namespace Decimal

/-- The reals that read as one number, as ratios over a common denominator. -/
structure Interval where
  low : Nat
  value : Nat
  high : Nat
  denominator : Nat
  closed : Bool

/-- The interval of a number other than zero: half the distance to each neighbour, the ends
included when ties are rounded to this number. Below a power of two the neighbour is nearer. -/
def Interval.of (x : Binary64) : Interval :=
  let below := if x.significand = twoTo 52 ∧ -1074 < x.exponent then 1 else 2
  let quarter := (⟨1, x.exponent - 2⟩ : Binary64).ratio
  { low := (4 * x.significand - below) * quarter.1
    value := 4 * x.significand * quarter.1
    high := (4 * x.significand + 2) * quarter.1
    denominator := quarter.2
    closed := x.significand % 2 = 0 }

/-- Whether `num / den` lies in the interval, compared after multiplying out. -/
def Interval.holds (i : Interval) (num den : Nat) : Bool :=
  let point := num * i.denominator
  if i.closed then i.low * den ≤ point && point ≤ i.high * den
  else i.low * den < point && point < i.high * den

/-- The multiple of `10 ^ power` in the interval that is nearest to its number, if there is one. -/
def Interval.onGrid? (i : Interval) (power : Int) : Option Nat :=
  let (stepNum, stepDen) :=
    if 0 ≤ power then (tenTo power.toNat, 1) else (1, tenTo (-power).toNat)
  let num := i.value * stepDen
  let den := i.denominator * stepNum
  let floor := num / den
  let up := floor + 1
  let floorFits := floor ≠ 0 && i.holds (floor * stepNum) stepDen
  let upFits := i.holds (up * stepNum) stepDen
  let nearest := Binary64.roundHalfEven num den
  if floorFits && upFits then some nearest
  else if floorFits then some floor
  else if upFits then some up
  else none

/-- The first grid, from `10 ^ power` on to finer ones, that has a point in the interval. -/
def coarsest (i : Interval) (power : Int) : Nat → Option Decimal
  | 0 => none
  | fuel + 1 =>
    match i.onGrid? power with
    | some k => some ⟨k, power⟩
    | none => coarsest i (power - 1) fuel

/-- The decimal with the fewest digits that reads as `x`. The coarsest grid with a point in the
interval is the one with the fewest digits, and it lies between `10 ^ 309` and `10 ^ -324`. -/
def shortest (x : Binary64) : Decimal :=
  if x.isZero then ⟨0, 0⟩
  else (coarsest (.of x) 309 640).getD ⟨0, 0⟩

/-- How the digits of a number are laid out. -/
inductive Style
  | plain
  | scientific
deriving DecidableEq, Repr

/-- The digits with a point before the last `-power` of them; whole numbers end in `.0`. -/
def plainText (d : Decimal) : List Char :=
  let digits := Nat.toDigits 10 d.digits
  if 0 ≤ d.power then digits ++ List.replicate d.power.toNat '0' ++ ['.', '0']
  else
    let places := (-d.power).toNat
    let padded := List.replicate (places + 1 - digits.length) '0' ++ digits
    padded.take (padded.length - places) ++ '.' :: padded.drop (padded.length - places)

/-- One digit, the point and the other digits if there are any, and the signed power of ten. -/
def scientificText (d : Decimal) : List Char :=
  let digits := Nat.toDigits 10 d.digits
  let power := d.power + (digits.length - 1 : Nat)
  digits.take 1 ++ (if digits.length = 1 then [] else '.' :: digits.drop 1) ++
    'e' :: (if power < 0 then '-' else '+') :: Nat.toDigits 10 power.natAbs

/-- The text of a number. In the scientific style a leading digit from `10 ^ -5` to `10 ^ 15`
still gives the plain form. -/
def text (style : Style) (d : Decimal) : List Char :=
  let leading := d.power + ((Nat.toDigits 10 d.digits).length - 1 : Nat)
  match style with
  | .plain => plainText d
  | .scientific => if -5 ≤ leading ∧ leading ≤ 15 then plainText d else scientificText d

end Decimal
end BrokerAgent
