import BrokerAgent.Shape
import BrokerAgent.Toml.Text

/-!
# Values without parts in TOML

Texts, numbers, the two truth values, and dates and times. `readScalar` reads any of them. Of a
date only its correctness matters, since no field of a record holds one.
-/

namespace BrokerAgent.Toml

/-- A value without parts. -/
inductive Scalar
  | text (value : List Char)
  | integer (value : Int)
  | number (negative : Bool) (magnitude : Binary64)
  | infinity (negative : Bool)
  | notANumber
  | boolean (value : Bool)
  | moment
deriving DecidableEq, Repr

/-- What a value is called in a message. A date counts as a table. -/
def Scalar.found : Scalar → Shape.Found
  | text value => .text value
  | integer value => .integer value
  | number negative magnitude => .number negative magnitude
  | infinity negative => .infinity negative
  | notANumber => .notANumber
  | boolean value => .boolean value
  | moment => .map

/-! ## Digits -/

/-- Reads digits of a kind, between any two of which one underscore may stand. -/
def readDigits (accepts : Char → Bool) : List Char → Option (List Char × List Char)
  | [] => none
  | c :: '_' :: rest =>
    if accepts c then
      match readDigits accepts rest with
      | none => none
      | some (digits, after) => some (c :: digits, after)
    else none
  | c :: d :: rest =>
    if accepts c then
      if accepts d then
        match readDigits accepts (d :: rest) with
        | none => none
        | some (digits, after) => some (c :: digits, after)
      else some ([c], d :: rest)
    else none
  | [c] => if accepts c then some ([c], []) else none

/-- There is a digit at least. -/
theorem length_lt_of_readDigits {accepts : Char → Bool} {s digits rest : List Char}
    (h : readDigits accepts s = some (digits, rest)) : rest.length < s.length := by
  fun_induction readDigits accepts s generalizing digits <;> grind

/-- Reads exactly `count` decimal digits after those that give `n`. -/
def readFixed (n : Nat) : Nat → List Char → Option (Nat × List Char)
  | 0, s => some (n, s)
  | _ + 1, [] => none
  | count + 1, c :: rest =>
    if c.isDigit then readFixed (n * 10 + Text.digitValue c) count rest else none

/-- As many characters are read as there are digits to read. -/
theorem length_of_readFixed {n count m : Nat} {s rest : List Char}
    (h : readFixed n count s = some (m, rest)) : rest.length + count = s.length := by
  fun_induction readFixed n count s <;> grind

/-- Reads one given character. -/
def readChar (c : Char) : List Char → Option (List Char)
  | [] => none
  | d :: rest => if d = c then some rest else none

/-- One character is read. -/
theorem length_of_readChar {c : Char} {s rest : List Char} (h : readChar c s = some rest) :
    rest.length + 1 = s.length := by
  unfold readChar at h
  grind

/-- Reads the letters of a word. -/
def readWord : List Char → List Char → Option (List Char)
  | [], s => some s
  | _ :: _, [] => none
  | letter :: letters, c :: rest => if c = letter then readWord letters rest else none

/-- As many characters are read as the word has letters. -/
theorem length_of_readWord {letters s rest : List Char} (h : readWord letters s = some rest) :
    rest.length + letters.length = s.length := by
  fun_induction readWord letters s <;> grind

/-! ## Dates and times -/

/-- Whether a year has a 29th of February. -/
def isLeap (year : Nat) : Bool :=
  year % 4 = 0 && (year % 100 ≠ 0 || year % 400 = 0)

/-- The days of a month. -/
def daysIn (year month : Nat) : Nat :=
  if month = 2 then if isLeap year then 29 else 28
  else if month = 4 ∨ month = 6 ∨ month = 9 ∨ month = 11 then 30
  else 31

/-- Reads a day: year, month and day of the month. -/
def readDay (s : List Char) : Option (List Char) := do
  let (year, s) ← readFixed 0 4 s
  let s ← readChar '-' s
  let (month, s) ← readFixed 0 2 s
  let s ← readChar '-' s
  let (day, s) ← readFixed 0 2 s
  if 1 ≤ month ∧ month ≤ 12 ∧ 1 ≤ day ∧ day ≤ daysIn year month then some s else none

/-- Passes over a point and the digits after it, if they come next. -/
def skipSecondFraction : List Char → List Char
  | '.' :: c :: rest => if c.isDigit then rest.dropWhile Char.isDigit else '.' :: c :: rest
  | rest => rest

/-- Reads hours and minutes. -/
def readMinutes (s : List Char) : Option (List Char) := do
  let (hour, s) ← readFixed 0 2 s
  let s ← readChar ':' s
  let (minute, s) ← readFixed 0 2 s
  if hour ≤ 23 ∧ minute ≤ 59 then some s else none

/-- Reads a time of the day. A leap second is allowed at any minute. -/
def readTime (s : List Char) : Option (List Char) := do
  let s ← readMinutes s
  let s ← readChar ':' s
  let (second, s) ← readFixed 0 2 s
  if second ≤ 60 then some (skipSecondFraction s) else none

/-- Passes over an offset from universal time, if one comes next. -/
def skipOffset (s : List Char) : List Char :=
  match s with
  | 'Z' :: rest => rest
  | 'z' :: rest => rest
  | '+' :: rest => (readMinutes rest).getD s
  | '-' :: rest => (readMinutes rest).getD s
  | _ => s

/-- The signs that may stand between a day and a time. -/
def isDayTimeSeparator (c : Char) : Bool :=
  c = 'T' || c = 't' || c = ' '

/-- Reads a day, a time, or both with or without an offset. A separator that no time follows is
left. -/
def readMoment (s : List Char) : Option (List Char) :=
  match readDay s with
  | none => readTime s
  | some rest =>
    match rest with
    | [] => some []
    | c :: time =>
      if isDayTimeSeparator c then
        match readTime time with
        | some after => some (skipOffset after)
        | none => some rest
      else some rest

/-- A day has a character at least. -/
theorem length_lt_of_readDay {s rest : List Char} (h : readDay s = some rest) :
    rest.length < s.length := by
  have hf := @length_of_readFixed
  have hc := @length_of_readChar
  simp only [readDay, Option.bind_eq_bind, Option.bind_eq_some_iff, Prod.exists] at h
  grind

/-- Passing over a fraction never adds to the text. -/
theorem length_skipSecondFraction_le (s : List Char) :
    (skipSecondFraction s).length ≤ s.length := by
  have := fun s => (List.dropWhile_sublist (l := s) Char.isDigit).length_le
  unfold skipSecondFraction
  grind

/-- Hours and minutes have a character at least. -/
theorem length_lt_of_readMinutes {s rest : List Char} (h : readMinutes s = some rest) :
    rest.length < s.length := by
  have hf := @length_of_readFixed
  have hc := @length_of_readChar
  simp only [readMinutes, Option.bind_eq_bind, Option.bind_eq_some_iff, Prod.exists] at h
  grind

/-- So has a time of the day. -/
theorem length_lt_of_readTime {s rest : List Char} (h : readTime s = some rest) :
    rest.length < s.length := by
  have hf := @length_of_readFixed
  have hc := @length_of_readChar
  have hm := @length_lt_of_readMinutes
  have hs := length_skipSecondFraction_le
  simp only [readTime, Option.bind_eq_bind, Option.bind_eq_some_iff, Prod.exists] at h
  grind

/-- Passing over an offset never adds to the text. -/
theorem length_skipOffset_le (s : List Char) : (skipOffset s).length ≤ s.length := by
  have hm := @length_lt_of_readMinutes
  unfold skipOffset
  split
  · simp
  · simp
  · rename_i rest
    cases hr : readMinutes rest with
    | none => simp
    | some after => have := hm hr; simp; omega
  · rename_i rest
    cases hr : readMinutes rest with
    | none => simp
    | some after => have := hm hr; simp; omega
  · simp

/-- A moment has a character at least. -/
theorem length_lt_of_readMoment {s rest : List Char} (h : readMoment s = some rest) :
    rest.length < s.length := by
  have hd := @length_lt_of_readDay
  have ht := @length_lt_of_readTime
  have ho := length_skipOffset_le
  unfold readMoment at h
  grind

/-! ## Numbers -/

/-- A sign and what follows it. Without a sign a number is positive. -/
def readSign : List Char → Bool × List Char
  | '-' :: rest => (true, rest)
  | '+' :: rest => (false, rest)
  | rest => (false, rest)

/-- Reads the whole digits of a decimal number: a single zero, or digits that do not begin with
one. -/
def readWhole : List Char → Option (List Char × List Char)
  | '0' :: rest => some (['0'], rest)
  | rest => readDigits Char.isDigit rest

/-- The integer of a sign and digits, if it has 64 bits. -/
def integer? (negative : Bool) (n : Nat) : Option Scalar :=
  if negative then if n ≤ twoTo 63 then some (.integer (-n)) else none
  else if n < twoTo 63 then some (.integer n) else none

/-- The number nearest to a decimal. One too large for the format is an error when positive and
infinite when negative. -/
def number? (negative : Bool) (digits : List Char) (power : Int) : Option Scalar :=
  match Binary64.ofDecimal (Text.numeral 10 digits) power with
  | some magnitude => some (.number negative magnitude)
  | none => if negative then some (.infinity true) else none

/-- Reads what follows the `e` of an exponent. -/
def readPower (s : List Char) : Option (Int × List Char) :=
  let (negative, s) := readSign s
  match readDigits Char.isDigit s with
  | none => none
  | some (digits, rest) =>
    let power := Text.numeral 10 digits
    some (if negative then -power else power, rest)

/-- Whether an exponent comes next. -/
def startsExponent : List Char → Bool
  | 'e' :: _ => true
  | 'E' :: _ => true
  | _ => false

/-- Reads an exponent, if one comes next, and ends a number with `places` digits after the point. -/
def finishNumber (negative : Bool) (digits : List Char) (places : Nat) (s : List Char) :
    Option (Scalar × List Char) :=
  if startsExponent s then do
    let (power, rest) ← readPower (s.drop 1)
    return (← number? negative digits (power - places), rest)
  else do
    return (← number? negative digits (-places), s)

/-- Reads a decimal number whose sign has been read. -/
def readDecimal (negative : Bool) (s : List Char) : Option (Scalar × List Char) :=
  match readWhole s with
  | none => none
  | some (whole, '.' :: rest) =>
    match readDigits Char.isDigit rest with
    | none => none
    | some (places, rest) => finishNumber negative (whole ++ places) places.length rest
  | some (whole, rest) =>
    if startsExponent rest then finishNumber negative whole 0 rest
    else (integer? negative (Text.numeral 10 whole)).map (·, rest)

/-- Reads the digits of an integer in another base. -/
def readBased (base : Nat) (accepts : Char → Bool) (s : List Char) :
    Option (Scalar × List Char) := do
  let (digits, rest) ← readDigits accepts s
  return (← integer? false (Text.numeral base digits), rest)

/-- Reads a number of any kind. -/
def readNumber (s : List Char) : Option (Scalar × List Char) :=
  match s with
  | '0' :: 'x' :: rest => readBased 16 (fun c => (Text.hexDigit? c).isSome) rest
  | '0' :: 'o' :: rest => readBased 8 (fun c => '0' ≤ c && c ≤ '7') rest
  | '0' :: 'b' :: rest => readBased 2 (fun c => c = '0' || c = '1') rest
  | s =>
    let (negative, rest) := readSign s
    match rest with
    | 'i' :: letters => (readWord ['n', 'f'] letters).map (.infinity negative, ·)
    | 'n' :: letters => (readWord ['a', 'n'] letters).map (.notANumber, ·)
    | rest => readDecimal negative rest

/-- Reading a sign never adds to the text. -/
theorem length_readSign_le (s : List Char) : (readSign s).2.length ≤ s.length := by
  unfold readSign
  split <;> simp

/-- A number has a digit before the point. -/
theorem length_lt_of_readWhole {s digits rest : List Char}
    (h : readWhole s = some (digits, rest)) : rest.length < s.length := by
  have hd := @length_lt_of_readDigits
  unfold readWhole at h
  grind

/-- An exponent has a digit. -/
theorem length_lt_of_readPower {s rest : List Char} {power : Int}
    (h : readPower s = some (power, rest)) : rest.length < s.length := by
  have hd := @length_lt_of_readDigits
  have hs := length_readSign_le s
  unfold readPower at h
  grind

/-- What follows the digits is no longer than what was left. -/
theorem length_le_of_finishNumber {negative : Bool} {digits s rest : List Char} {places : Nat}
    {v : Scalar} (h : finishNumber negative digits places s = some (v, rest)) :
    rest.length ≤ s.length := by
  have hp := @length_lt_of_readPower
  unfold finishNumber at h
  split at h
  · simp only [Option.bind_eq_bind, Option.bind_eq_some_iff, Prod.exists, Option.pure_def,
      Option.some.injEq, Prod.mk.injEq] at h
    obtain ⟨power, after, hr, v', _, _, rfl⟩ := h
    have := hp hr
    rw [List.length_drop] at this
    omega
  · simp only [Option.bind_eq_bind, Option.bind_eq_some_iff, Option.pure_def,
      Option.some.injEq, Prod.mk.injEq] at h
    obtain ⟨v', _, _, rfl⟩ := h
    exact Nat.le_refl _

/-- A decimal number has a character at least. -/
theorem length_lt_of_readDecimal {negative : Bool} {s rest : List Char} {v : Scalar}
    (h : readDecimal negative s = some (v, rest)) : rest.length < s.length := by
  have hd := @length_lt_of_readDigits
  have hw := @length_lt_of_readWhole
  have hf := @length_le_of_finishNumber
  unfold readDecimal at h
  split at h
  · simp at h
  · split at h <;> grind
  · split at h
    · grind
    · simp only [Option.map_eq_some_iff, Prod.mk.injEq] at h
      grind

/-- So has a number in another base. -/
theorem length_lt_of_readBased {base : Nat} {accepts : Char → Bool} {s rest : List Char}
    {v : Scalar} (h : readBased base accepts s = some (v, rest)) : rest.length < s.length := by
  simp only [readBased, Option.bind_eq_bind, Option.bind_eq_some_iff, Prod.exists, Option.pure_def,
    Option.some.injEq, Prod.mk.injEq] at h
  obtain ⟨digits, after, hd, v', _, _, rfl⟩ := h
  exact length_lt_of_readDigits hd

/-- So has a number of any kind. -/
theorem length_lt_of_readNumber {s rest : List Char} {v : Scalar}
    (h : readNumber s = some (v, rest)) : rest.length < s.length := by
  have hb := @length_lt_of_readBased
  have hd := @length_lt_of_readDecimal
  have hw := @length_of_readWord
  unfold readNumber at h
  split at h
  · grind
  · grind
  · grind
  · have hs := length_readSign_le s
    split at h
    split at h
    · simp only [Option.map_eq_some_iff, Prod.mk.injEq] at h
      grind
    · simp only [Option.map_eq_some_iff, Prod.mk.injEq] at h
      grind
    · grind

/-! ## All of them -/

/-- Reads a value without parts; its first character says of which kind it is. -/
def readScalar (s : List Char) : Option (Scalar × List Char) :=
  match s with
  | [] => none
  | c :: rest =>
    if c = '"' ∨ c = '\'' then (readText s).map fun (text, rest) => (.text text, rest)
    else if c = '+' ∨ c = '-' ∨ c.isDigit then
      match readMoment s with
      | some rest => some (.moment, rest)
      | none => readNumber s
    else if c = 't' then (readWord ['r', 'u', 'e'] rest).map (.boolean true, ·)
    else if c = 'f' then (readWord ['a', 'l', 's', 'e'] rest).map (.boolean false, ·)
    else if c = 'i' ∨ c = 'n' then readNumber s
    else none

/-- Every value without parts has a character at least. -/
theorem length_lt_of_readScalar {s rest : List Char} {v : Scalar}
    (h : readScalar s = some (v, rest)) : rest.length < s.length := by
  have ht := @length_lt_of_readText
  have hm := @length_lt_of_readMoment
  have hn := @length_lt_of_readNumber
  have hw := @length_of_readWord
  unfold readScalar at h
  split at h
  · simp at h
  · split at h
    · simp only [Option.map_eq_some_iff, Prod.exists, Prod.mk.injEq] at h
      grind
    split at h
    · grind
    split at h
    · simp only [Option.map_eq_some_iff, Prod.mk.injEq] at h
      grind
    split at h
    · simp only [Option.map_eq_some_iff, Prod.mk.injEq] at h
      grind
    split at h
    · exact hn h
    · simp at h

end BrokerAgent.Toml
