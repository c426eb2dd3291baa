import BrokerAgent.Json.Fault
import BrokerAgent.Text.Digit

/-!
# Blanks, words and quoted texts in JSON

The smallest pieces of a JSON text. Quoted texts are read in two ways: `readText` gives the
characters and insists that the escapes spell characters; `skipText` only finds the closing quote,
for values that nobody looks at. The lemmas say that each reader gets further.
-/

namespace BrokerAgent.Json

/-! ## Blanks -/

/-- The four blanks of JSON. -/
def isSpace (c : Char) : Bool :=
  c = ' ' || c = '\n' || c = '\t' || c = '\r'

/-- What is left after the blanks at the front. -/
def skipSpace (s : List Char) : List Char :=
  s.dropWhile isSpace

/-- Passing over blanks never adds to the text. -/
theorem length_skipSpace_le (s : List Char) : (skipSpace s).length ≤ s.length :=
  (List.dropWhile_sublist _).length_le

/-- Behind the first character that is no blank less is left. -/
theorem length_lt_of_skipSpace {s rest : List Char} {c : Char} (h : skipSpace s = c :: rest) :
    rest.length < s.length := by
  have := length_skipSpace_le s
  rw [h, List.length_cons] at this
  omega

/-! ## Words -/

/-- Reads the letters of a word whose first letter has been seen. -/
def readWord : List Char → List Char → Except Fault (List Char)
  | [], s => .ok s
  | _ :: _, [] => faultHere .endInValue []
  | letter :: letters, c :: rest =>
    if c = letter then readWord letters rest else faultAt .wordExpected (c :: rest)

/-- What follows a word is no longer than what it was read from. -/
theorem length_le_of_readWord {letters s rest : List Char} (h : readWord letters s = .ok rest) :
    rest.length ≤ s.length := by
  fun_induction readWord letters s with
  | case1 => simp_all
  | case2 => simp [faultHere] at h
  | case3 letter letters rest' ih => have := ih h; simp; omega
  | case4 => simp [faultAt] at h

/-! ## Escapes -/

/-- The number that four hexadecimal digits spell. -/
def hexUnit? (a b c d : Char) : Option Nat := do
  let a ← Text.hexDigit? a
  let b ← Text.hexDigit? b
  let c ← Text.hexDigit? c
  let d ← Text.hexDigit? d
  return ((a * 16 + b) * 16 + c) * 16 + d

/-- Reads four hexadecimal digits. Fewer than four bytes are a text cut short; otherwise four
bytes are used up whatever they are. -/
def readUnit (s : List Char) : Reading Nat :=
  if Utf8.size (s.take 4) < 4 then faultHere .endInText []
  else
    match s with
    | a :: b :: c :: d :: rest =>
      match hexUnit? a b c d with
      | some n => .ok (n, rest)
      | none => .error ⟨.invalidEscape, ⟨s, 4⟩⟩
    | _ => .error ⟨.invalidEscape, ⟨s, 4⟩⟩

/-- A code unit takes digits. -/
theorem length_lt_of_readUnit {s rest : List Char} {n : Nat} (h : readUnit s = .ok (n, rest)) :
    rest.length < s.length := by
  unfold readUnit at h
  split at h
  · simp [faultHere] at h
  · split at h
    · split at h
      · simp only [Except.ok.injEq, Prod.mk.injEq] at h
        simp only [← h.2, List.length_cons]
        omega
      · simp at h
    · simp at h

/-- The units that come first in a pair. -/
def isLeading (n : Nat) : Bool := 0xD800 ≤ n && n < 0xDC00

/-- The units that come second in a pair. -/
def isTrailing (n : Nat) : Bool := 0xDC00 ≤ n && n < 0xE000

/-- Reads the unit that has to follow a leading one, with its own backslash, and gives the
character of the pair. -/
def readPair (leading : Nat) (s : List Char) : Reading Char :=
  match s with
  | [] => faultHere .endInText []
  | '\\' :: [] => faultHere .endInText []
  | '\\' :: 'u' :: rest =>
    match readUnit rest with
    | .error fault => .error fault
    | .ok (trailing, rest) =>
      if isTrailing trailing then
        .ok (Char.ofNat (0x10000 + (leading - 0xD800) * 0x400 + (trailing - 0xDC00)), rest)
      else faultHere .loneSurrogate rest
  | '\\' :: rest => faultAt .endOfEscape rest
  | rest => faultAt .endOfEscape rest

/-- The second half of a pair takes digits. -/
theorem length_lt_of_readPair {n : Nat} {s rest : List Char} {c : Char}
    (h : readPair n s = .ok (c, rest)) : rest.length < s.length := by
  unfold readPair at h
  split at h <;> try (simp [faultHere, faultAt] at h; done)
  split at h
  · simp at h
  · rename_i hu
    have := length_lt_of_readUnit hu
    split at h
    · simp only [Except.ok.injEq, Prod.mk.injEq] at h
      simp only [← h.2, List.length_cons]
      omega
    · simp [faultHere] at h

/-- The characters with an escape of one letter. -/
def shortEscape? (letter : Char) : Option Char :=
  match letter with
  | '"' => some '"'
  | '\\' => some '\\'
  | '/' => some '/'
  | 'b' => some '\x08'
  | 'f' => some '\x0c'
  | 'n' => some '\n'
  | 'r' => some '\r'
  | 't' => some '\t'
  | _ => none

/-- Reads what follows a backslash and gives the character it spells. -/
def readEscape (s : List Char) : Reading Char :=
  match s with
  | [] => faultHere .endInText []
  | 'u' :: rest =>
    match readUnit rest with
    | .error fault => .error fault
    | .ok (n, rest) =>
      if isTrailing n then faultHere .loneSurrogate rest
      else if isLeading n then readPair n rest
      else .ok (Char.ofNat n, rest)
  | letter :: rest =>
    match shortEscape? letter with
    | some c => .ok (c, rest)
    | none => faultAt .invalidEscape (letter :: rest)

/-- An escape has a letter at least. -/
theorem length_lt_of_readEscape {s rest : List Char} {c : Char}
    (h : readEscape s = .ok (c, rest)) : rest.length < s.length := by
  unfold readEscape at h
  split at h
  · simp [faultHere] at h
  · split at h
    · simp at h
    · rename_i hu
      have := length_lt_of_readUnit hu
      split at h
      · simp [faultHere] at h
      · split at h
        · have := length_lt_of_readPair h
          simp only [List.length_cons]
          omega
        · simp only [Except.ok.injEq, Prod.mk.injEq] at h
          simp only [← h.2, List.length_cons]
          omega
  · split at h
    · simp only [Except.ok.injEq, Prod.mk.injEq] at h
      simp only [← h.2, List.length_cons]
      omega
    · simp [faultAt] at h

/-- Passes over what follows a backslash; four digits need not spell a character. -/
def skipEscape (s : List Char) : Except Fault (List Char) :=
  match s with
  | [] => faultHere .endInText []
  | 'u' :: rest =>
    match readUnit rest with
    | .error fault => .error fault
    | .ok (_, rest) => .ok rest
  | letter :: rest =>
    if (shortEscape? letter).isSome then .ok rest else faultAt .invalidEscape (letter :: rest)

theorem length_lt_of_skipEscape {s rest : List Char} (h : skipEscape s = .ok rest) :
    rest.length < s.length := by
  unfold skipEscape at h
  split at h
  · simp [faultHere] at h
  · split at h
    · simp at h
    · rename_i hu
      have := length_lt_of_readUnit hu
      simp only [Except.ok.injEq] at h
      simp only [← h, List.length_cons]
      omega
  · split at h
    · simp only [Except.ok.injEq] at h
      simp only [← h, List.length_cons]
      omega
    · simp [faultAt] at h

/-! ## Quoted texts -/

/-- Reads up to the closing quote; the opening one has been read. -/
def readText (s : List Char) : Reading (List Char) :=
  match s with
  | [] => faultHere .endInText []
  | c :: rest =>
    if c = '"' then .ok ([], rest)
    else if c = '\\' then
      match _hr : readEscape rest with
      | .error fault => .error fault
      | .ok (d, rest') =>
        match readText rest' with
        | .error fault => .error fault
        | .ok (text, after) => .ok (d :: text, after)
    else if c < ' ' then faultAt .controlCharacter (c :: rest)
    else
      match readText rest with
      | .error fault => .error fault
      | .ok (text, after) => .ok (c :: text, after)
termination_by s.length
decreasing_by
  · have := length_lt_of_readEscape _hr
    simp only [List.length_cons]
    omega
  · simp

/-- A text ends with a quote. -/
theorem length_lt_of_readText {s rest text : List Char} (h : readText s = .ok (text, rest)) :
    rest.length < s.length := by
  fun_induction readText s generalizing text with
  | case1 => simp [faultHere] at h
  | case2 => simp_all
  | case3 => simp_all
  | case4 => simp_all
  | case5 =>
    rename_i hr _ _ ht _ ih
    simp only [Except.ok.injEq, Prod.mk.injEq] at h
    obtain ⟨-, rfl⟩ := h
    have := length_lt_of_readEscape hr
    have := ih ht
    simp only [List.length_cons]
    omega
  | case6 => simp [faultAt] at h
  | case7 => simp_all
  | case8 =>
    rename_i ht ih
    simp only [Except.ok.injEq, Prod.mk.injEq] at h
    obtain ⟨-, rfl⟩ := h
    have := ih ht
    simp only [List.length_cons]
    omega

/-- Passes over a text up to its closing quote. A control character is reported where it stands. -/
def skipText (s : List Char) : Except Fault (List Char) :=
  match s with
  | [] => faultHere .endInText []
  | c :: rest =>
    if c = '"' then .ok rest
    else if c = '\\' then
      match _hr : skipEscape rest with
      | .error fault => .error fault
      | .ok rest' => skipText rest'
    else if c < ' ' then faultHere .controlCharacter (c :: rest)
    else skipText rest
termination_by s.length
decreasing_by
  · have := length_lt_of_skipEscape _hr
    simp only [List.length_cons]
    omega
  · simp

theorem length_lt_of_skipText {s rest : List Char} (h : skipText s = .ok rest) :
    rest.length < s.length := by
  fun_induction skipText s with
  | case1 => simp [faultHere] at h
  | case2 => simp_all
  | case3 => simp_all
  | case4 =>
    rename_i hr _ ih
    have := length_lt_of_skipEscape hr
    have := ih h
    simp only [List.length_cons]
    omega
  | case5 => simp [faultHere] at h
  | case6 =>
    rename_i ih
    have := ih h
    simp only [List.length_cons]
    omega

end BrokerAgent.Json
