import BrokerAgent.Json.Text

/-!
# Numbers in JSON

A number is read in two ways, like a quoted text. `readNumber` gives its value, for the message
that says which number stands where none is wanted; `skipNumber` only checks its grammar. The
value of a number that is no integer of 64 bits is computed in double precision from its first
digits, as many as 64 bits hold, and its power of ten, with a rounding for each of the two:
`scale` is that rule.
-/

namespace BrokerAgent.Json

/-- Whether a digit comes next. -/
def startsWithDigit : List Char → Bool
  | [] => false
  | c :: _ => c.isDigit

/-- What is left after the digits at the front. -/
def skipDigits (s : List Char) : List Char :=
  s.dropWhile Char.isDigit

/-- Passing over digits never adds to the text. -/
theorem length_skipDigits_le (s : List Char) : (skipDigits s).length ≤ s.length :=
  (List.dropWhile_sublist _).length_le

/-- What is left after a sign, if one comes next. -/
def skipSign : List Char → List Char
  | '+' :: rest => rest
  | '-' :: rest => rest
  | rest => rest

/-- Passing over a sign never adds to the text. -/
theorem length_skipSign_le (s : List Char) : (skipSign s).length ≤ s.length := by
  unfold skipSign
  split <;> simp

/-! ## Grammar only -/

/-- Passes over an exponent, if one comes next. -/
def skipExponent (s : List Char) : Except Fault (List Char) :=
  match s with
  | [] => .ok []
  | c :: rest =>
    if c = 'e' ∨ c = 'E' then
      if startsWithDigit (skipSign rest) then .ok (skipDigits (skipSign rest))
      else faultAt .invalidNumber (skipSign rest)
    else .ok s

/-- Passes over a fraction and an exponent, as far as they come next. -/
def skipFraction (s : List Char) : Except Fault (List Char) :=
  match s with
  | '.' :: rest =>
    if startsWithDigit rest then skipExponent (skipDigits rest)
    else faultAt .invalidNumber rest
  | rest => skipExponent rest

/-- Passes over a number whose sign has been read. -/
def skipNumber (s : List Char) : Except Fault (List Char) :=
  match s with
  | [] => faultAt .invalidNumber []
  | c :: rest =>
    if c = '0' then
      if startsWithDigit rest then faultAt .invalidNumber rest else skipFraction rest
    else if c.isDigit then skipFraction (skipDigits rest)
    else faultAt .invalidNumber s

/-- What follows an exponent is no longer than what it was looked for in. -/
theorem length_le_of_skipExponent {s rest : List Char} (h : skipExponent s = .ok rest) :
    rest.length ≤ s.length := by
  unfold skipExponent at h
  split at h
  · simp_all
  · rename_i c tail
    split at h
    · split at h
      · simp only [Except.ok.injEq] at h
        have := length_skipDigits_le (skipSign tail)
        have := length_skipSign_le tail
        rw [← h, List.length_cons]
        omega
      · simp [faultAt] at h
    · simp_all

/-- What follows a fraction is no longer than what it was looked for in. -/
theorem length_le_of_skipFraction {s rest : List Char} (h : skipFraction s = .ok rest) :
    rest.length ≤ s.length := by
  unfold skipFraction at h
  split at h
  · rename_i tail
    split at h
    · have := length_le_of_skipExponent h
      have := length_skipDigits_le tail
      rw [List.length_cons]
      omega
    · simp [faultAt] at h
  · exact length_le_of_skipExponent h

/-- A number has a character at least. -/
theorem length_lt_of_skipNumber {s rest : List Char} (h : skipNumber s = .ok rest) :
    rest.length < s.length := by
  unfold skipNumber at h
  split at h
  · simp [faultAt] at h
  · rename_i c tail
    rw [List.length_cons]
    split at h
    · split at h
      · simp [faultAt] at h
      · have := length_le_of_skipFraction h
        omega
    · split at h
      · have := length_le_of_skipFraction h
        have := length_skipDigits_le tail
        omega
      · simp [faultAt] at h

/-! ## Values -/

/-- A number: an integer of 64 bits, or a number in double precision. -/
inductive Number
  | integer (value : Int)
  | double (negative : Bool) (magnitude : Binary64)
deriving DecidableEq, Repr

/-- What a number is called in a message. -/
def Number.found : Number → Shape.Found
  | integer value => .integer value
  | double negative magnitude => .number negative magnitude

/-- Divides by `10 ^ power`, rounded to the format before. -/
def divPower (x : Binary64) (power : Nat) : Option Binary64 := do
  x.div (← Binary64.ofNat (tenTo power))

/-- The largest power of ten that the format holds. -/
def largestPower : Nat := 308

/-- Divides by the largest power of ten the given number of times, or until nothing is left. -/
def divSteps (x : Binary64) : Nat → Option Binary64
  | 0 => some x
  | steps + 1 => if x.isZero then some x else do divSteps (← divPower x largestPower) steps

/-- Divides by `10 ^ power` in steps that the format can hold. -/
def shrink (x : Binary64) (power : Nat) : Option Binary64 := do
  let steps := (power - 1) / largestPower
  divPower (← divSteps x steps) (power - steps * largestPower)

/-- The digits times the power of ten, the digits rounded first and then the product; `none` when
the format has no number so large. -/
def scale (digits : Nat) (power : Int) : Option Binary64 := do
  let x ← Binary64.ofNat digits
  if power < 0 then shrink x power.natAbs
  else if power ≤ largestPower then x.mul (← Binary64.ofNat (tenTo power.toNat))
  else if x.isZero then some x
  else none

/-- Takes digits onto `n` as long as the result stays below `limit`. Gives the number, how many
digits were taken, and what is left. -/
def takeDigits (limit n : Nat) : List Char → Nat × Nat × List Char
  | [] => (n, 0, [])
  | c :: rest =>
    if c.isDigit && n * 10 + Text.digitValue c < limit then
      let (m, count, after) := takeDigits limit (n * 10 + Text.digitValue c) rest
      (m, count + 1, after)
    else (n, 0, c :: rest)

/-- Ends a number in double precision. -/
def finishDouble (negative : Bool) (digits : Nat) (power : Int) (rest : List Char) :
    Reading Number :=
  match scale digits power with
  | some magnitude => .ok (.double negative magnitude, rest)
  | none => faultHere .numberTooLarge rest

/-- Reads what follows the `e` of an exponent. An exponent beyond 31 bits is not read further: it
gives zero, or a number too large. -/
def readExponent (negative : Bool) (digits : Nat) (power : Int) (s : List Char) :
    Reading Number :=
  let down := s.head? = some '-'
  match skipSign s with
  | [] => faultHere .endInValue []
  | c :: rest =>
    if c.isDigit then
      match takeDigits (twoTo 31) (Text.digitValue c) rest with
      | (exponent, _, rest) =>
        if startsWithDigit rest then
          if digits ≠ 0 ∧ ¬ down then faultAt .numberTooLarge rest
          else .ok (.double negative .zero, skipDigits rest)
        else finishDouble negative digits (if down then power - exponent else power + exponent) rest
    else faultAt .invalidNumber (c :: rest)

/-- Reads an exponent, if one comes next, and ends the number. -/
def readTail (negative : Bool) (digits : Nat) (power : Int) (s : List Char) : Reading Number :=
  match s with
  | [] => finishDouble negative digits power []
  | c :: rest =>
    if c = 'e' ∨ c = 'E' then readExponent negative digits power rest
    else finishDouble negative digits power s

/-- Reads what follows the point. Digits that 64 bits cannot hold are passed over. -/
def readFraction (negative : Bool) (digits : Nat) (power : Int) (s : List Char) :
    Reading Number :=
  match takeDigits (twoTo 64) digits s with
  | (digits, count, rest) =>
    if startsWithDigit rest then readTail negative digits (power - count) (skipDigits rest)
    else if count = 0 then
      match rest with
      | [] => faultHere .endInValue []
      | rest => faultAt .invalidNumber rest
    else readTail negative digits (power - count) rest

/-- An integer, unless it is a negative zero or below the least of 64 bits. -/
def ofInteger (negative : Bool) (digits : Nat) (rest : List Char) : Reading Number :=
  if ¬ negative then .ok (.integer digits, rest)
  else if digits = 0 ∨ twoTo 63 < digits then finishDouble true digits 0 rest
  else .ok (.integer (-digits), rest)

/-- Reads what follows the whole digits. The `extra` ones did not fit into 64 bits. -/
def readRest (negative : Bool) (digits extra : Nat) (s : List Char) : Reading Number :=
  match s with
  | '.' :: rest => readFraction negative digits extra rest
  | c :: rest =>
    if c = 'e' ∨ c = 'E' then readExponent negative digits extra rest
    else if extra = 0 then ofInteger negative digits s
    else finishDouble negative digits extra s
  | [] =>
    if extra = 0 then ofInteger negative digits [] else finishDouble negative digits extra []

/-- Reads a number whose sign has been read. -/
def readNumber (negative : Bool) (s : List Char) : Reading Number :=
  match s with
  | [] => faultHere .endInValue []
  | c :: rest =>
    if c = '0' then
      if startsWithDigit rest then faultAt .invalidNumber rest
      else readRest negative 0 0 rest
    else if c.isDigit then
      match takeDigits (twoTo 64) (Text.digitValue c) rest with
      | (digits, _, rest) =>
        let after := skipDigits rest
        readRest negative digits (rest.length - after.length) after
    else faultAt .invalidNumber s

end BrokerAgent.Json
