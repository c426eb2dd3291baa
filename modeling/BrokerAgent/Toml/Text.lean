import BrokerAgent.Settings.Basic
import BrokerAgent.Text.Digit

/-!
# Blanks, comments and quoted texts in TOML

The smallest pieces of a TOML document. Four kinds of quoted texts are read: basic ones with
escapes, literal ones without, and both on several lines. A reader gives the characters and what
follows the closing quote, or `none`: of a document that is not TOML nothing but the fact is
reported. The lemmas say that each reader gets further.
-/

namespace BrokerAgent.Toml

/-! ## Blanks and line ends -/

/-- The two blanks inside a line. -/
def isBlank (c : Char) : Bool :=
  c = ' ' || c = '\t'

/-- What is left after the blanks at the front. -/
def skipBlanks (s : List Char) : List Char :=
  s.dropWhile isBlank

/-- A line ends with a line feed, before which a carriage return may stand. -/
def newline? : List Char → Option (List Char)
  | '\n' :: rest => some rest
  | '\r' :: '\n' :: rest => some rest
  | _ => none

/-- What comments and texts may hold: all but controls, a tab excepted. -/
def isTextChar (c : Char) : Bool :=
  c = '\t' || (' ' ≤ c && c ≠ '\x7f')

/-- What is left after blanks, comments and line ends. A comment that breaks off at a control
character leaves that character. -/
def skipLines (inComment : Bool) : List Char → List Char
  | [] => []
  | '\n' :: rest => skipLines false rest
  | '\r' :: '\n' :: rest => skipLines false rest
  | c :: rest =>
    if inComment then if isTextChar c then skipLines true rest else c :: rest
    else if isBlank c then skipLines false rest
    else if c = '#' then skipLines true rest
    else c :: rest

/-- Passes over what may follow a statement on its line: blanks, a comment, and the end of the
line or of the document. -/
def readLineEnd (s : List Char) : Option (List Char) :=
  let rest :=
    match skipBlanks s with
    | '#' :: comment => comment.dropWhile isTextChar
    | rest => rest
  match rest with
  | [] => some []
  | rest => newline? rest

/-- Passing over blanks never adds to the text. -/
theorem length_skipBlanks_le (s : List Char) : (skipBlanks s).length ≤ s.length :=
  (List.dropWhile_sublist _).length_le

/-- The end of a line takes a character at least. -/
theorem length_lt_of_newline? {s rest : List Char} (h : newline? s = some rest) :
    rest.length < s.length := by
  unfold newline? at h
  split at h <;> grind

/-- Passing over lines never adds to the text. -/
theorem length_skipLines_le (inComment : Bool) (s : List Char) :
    (skipLines inComment s).length ≤ s.length := by
  fun_induction skipLines inComment s <;> grind

/-- What follows a line is no longer than what was left of the line. -/
theorem length_le_of_readLineEnd {s rest : List Char} (h : readLineEnd s = some rest) :
    rest.length ≤ s.length := by
  have hs := length_skipBlanks_le s
  have hn := @length_lt_of_newline?
  unfold readLineEnd at h
  split at h
  · rename_i comment hc
    have := (List.dropWhile_sublist (l := comment) isTextChar).length_le
    grind
  · grind

/-- A line has an end, if only that of the document. -/
theorem length_lt_of_readLineEnd {s rest : List Char} (h : readLineEnd s = some rest)
    (hs : s ≠ []) : rest.length < s.length := by
  have hpos := List.length_pos_iff.2 hs
  have hb := length_skipBlanks_le s
  have hn := @length_lt_of_newline?
  unfold readLineEnd at h
  split at h
  · rename_i comment hc
    have := (List.dropWhile_sublist (l := comment) isTextChar).length_le
    grind
  · grind

/-! ## Escapes -/

/-- Reads exactly `count` hexadecimal digits after those that give `n`. -/
def readHex (n : Nat) : Nat → List Char → Option (Nat × List Char)
  | 0, s => some (n, s)
  | _ + 1, [] => none
  | count + 1, c :: rest =>
    match Text.hexDigit? c with
    | some digit => readHex (n * 16 + digit) count rest
    | none => none

/-- Reads the number of a character in `count` hexadecimal digits. -/
def readCodePoint (count : Nat) (s : List Char) : Option (Char × List Char) :=
  match readHex 0 count s with
  | some (n, rest) => if n.isValidChar then some (Char.ofNat n, rest) else none
  | none => none

/-- Reads what follows a backslash and gives the character it spells. -/
def readEscape : List Char → Option (Char × List Char)
  | 'b' :: rest => some ('\x08', rest)
  | 'f' :: rest => some ('\x0c', rest)
  | 'n' :: rest => some ('\n', rest)
  | 'r' :: rest => some ('\r', rest)
  | 't' :: rest => some ('\t', rest)
  | '"' :: rest => some ('"', rest)
  | '\\' :: rest => some ('\\', rest)
  | 'u' :: rest => readCodePoint 4 rest
  | 'U' :: rest => readCodePoint 8 rest
  | _ => none

/-- Digits are read from the front. -/
theorem length_le_of_readHex {n count m : Nat} {s rest : List Char}
    (h : readHex n count s = some (m, rest)) : rest.length ≤ s.length := by
  fun_induction readHex n count s <;> grind

/-- So is the number of a character. -/
theorem length_le_of_readCodePoint {count : Nat} {s rest : List Char} {c : Char}
    (h : readCodePoint count s = some (c, rest)) : rest.length ≤ s.length := by
  have hx := @length_le_of_readHex
  unfold readCodePoint at h
  grind

/-- An escape has a letter at least. -/
theorem length_lt_of_readEscape {s rest : List Char} {c : Char}
    (h : readEscape s = some (c, rest)) : rest.length < s.length := by
  have hx := @length_le_of_readCodePoint
  unfold readEscape at h
  split at h <;> grind

/-! ## Texts on one line -/

/-- What a basic text may hold without an escape. -/
def isBasicChar (c : Char) : Bool :=
  isTextChar c && c ≠ '"' && c ≠ '\\'

/-- What a literal text may hold. -/
def isLiteralChar (c : Char) : Bool :=
  isTextChar c && c ≠ '\''

/-- Reads a basic text up to its closing quote; the opening one has been read. -/
def readBasic (s : List Char) : Option (List Char × List Char) :=
  match s with
  | [] => none
  | c :: rest =>
    if c = '"' then some ([], rest)
    else if c = '\\' then
      match _h : readEscape rest with
      | none => none
      | some (d, rest') =>
        match readBasic rest' with
        | none => none
        | some (text, after) => some (d :: text, after)
    else if isBasicChar c then
      match readBasic rest with
      | none => none
      | some (text, after) => some (c :: text, after)
    else none
termination_by s.length
decreasing_by
  · have := length_lt_of_readEscape _h
    rw [List.length_cons]
    omega
  · simp

/-- Reads a literal text up to its closing quote. -/
def readLiteral : List Char → Option (List Char × List Char)
  | [] => none
  | c :: rest =>
    if c = '\'' then some ([], rest)
    else if isLiteralChar c then
      match readLiteral rest with
      | none => none
      | some (text, after) => some (c :: text, after)
    else none

/-- A basic text has a quote at its end. -/
theorem length_lt_of_readBasic {s text rest : List Char} (h : readBasic s = some (text, rest)) :
    rest.length < s.length := by
  have hx := @length_lt_of_readEscape
  fun_induction readBasic s generalizing text <;> grind

/-- So has a literal one. -/
theorem length_lt_of_readLiteral {s text rest : List Char}
    (h : readLiteral s = some (text, rest)) : rest.length < s.length := by
  fun_induction readLiteral s generalizing text <;> grind

/-! ## Texts on several lines -/

/-- Passes over a line end directly after the opening quotes. -/
def skipFirstNewline (s : List Char) : List Char :=
  match newline? s with
  | some rest => rest
  | none => s

/-- Passing over the first line end never adds to the text. -/
theorem length_skipFirstNewline_le (s : List Char) : (skipFirstNewline s).length ≤ s.length := by
  unfold skipFirstNewline
  split
  · rename_i hn
    exact Nat.le_of_lt (length_lt_of_newline? hn)
  · exact Nat.le_refl _

/-- Passes over blanks and line ends. -/
def skipWhite : List Char → List Char
  | [] => []
  | '\n' :: rest => skipWhite rest
  | '\r' :: '\n' :: rest => skipWhite rest
  | c :: rest => if isBlank c then skipWhite rest else c :: rest

/-- After a backslash that ends its line: what is left after all blanks and line ends. -/
def continuation? (s : List Char) : Option (List Char) :=
  (newline? (skipBlanks s)).map skipWhite

/-- Passing over blanks and line ends never adds to the text. -/
theorem length_skipWhite_le (s : List Char) : (skipWhite s).length ≤ s.length := by
  fun_induction skipWhite s <;> grind

/-- A line that goes on has an end nevertheless. -/
theorem length_lt_of_continuation? {s rest : List Char} (h : continuation? s = some rest) :
    rest.length < s.length := by
  obtain ⟨next, hn, rfl⟩ := Option.map_eq_some_iff.1 h
  have := length_lt_of_newline? hn
  have := length_skipWhite_le next
  have := length_skipBlanks_le s
  omega

/-- After three quotes: up to two more belong to the text, of which they are the end. -/
def closeLines (quote : Char) (s : List Char) : Option (List Char × List Char) :=
  let more := (s.takeWhile (· = quote)).length
  if more ≤ 2 then some (List.replicate more quote, s.drop more) else none

/-- Reads a basic text on several lines up to its three closing quotes. -/
def readBasicLines (s : List Char) : Option (List Char × List Char) :=
  match s with
  | [] => none
  | '"' :: '"' :: '"' :: rest => closeLines '"' rest
  | '\r' :: '\n' :: rest =>
    match readBasicLines rest with
    | none => none
    | some (text, after) => some ('\n' :: text, after)
  | c :: rest =>
    if c = '\\' then
      match _h : continuation? rest with
      | some rest' => readBasicLines rest'
      | none =>
        match _h' : readEscape rest with
        | none => none
        | some (d, rest') =>
          match readBasicLines rest' with
          | none => none
          | some (text, after) => some (d :: text, after)
    else if isBasicChar c || c = '"' || c = '\n' then
      match readBasicLines rest with
      | none => none
      | some (text, after) => some (c :: text, after)
    else none
termination_by s.length
decreasing_by
  · simp only [List.length_cons]
    omega
  · have := length_lt_of_continuation? _h
    rw [List.length_cons]
    omega
  · have := length_lt_of_readEscape _h'
    rw [List.length_cons]
    omega
  · simp

/-- Reads a literal text on several lines up to its three closing quotes. -/
def readLiteralLines : List Char → Option (List Char × List Char)
  | [] => none
  | '\'' :: '\'' :: '\'' :: rest => closeLines '\'' rest
  | '\r' :: '\n' :: rest =>
    match readLiteralLines rest with
    | none => none
    | some (text, after) => some ('\n' :: text, after)
  | c :: rest =>
    if isTextChar c || c = '\n' then
      match readLiteralLines rest with
      | none => none
      | some (text, after) => some (c :: text, after)
    else none

/-- Quotes at the end are read from the front. -/
theorem length_le_of_closeLines {quote : Char} {s text rest : List Char}
    (h : closeLines quote s = some (text, rest)) : rest.length ≤ s.length := by
  unfold closeLines at h
  grind

/-- A basic text on several lines has quotes at its end. -/
theorem length_lt_of_readBasicLines {s text rest : List Char}
    (h : readBasicLines s = some (text, rest)) : rest.length < s.length := by
  have hx := @length_lt_of_readEscape
  have hc := @length_lt_of_continuation?
  have hq := @length_le_of_closeLines
  fun_induction readBasicLines s generalizing text <;> grind

/-- So has a literal one. -/
theorem length_lt_of_readLiteralLines {s text rest : List Char}
    (h : readLiteralLines s = some (text, rest)) : rest.length < s.length := by
  have hq := @length_le_of_closeLines
  fun_induction readLiteralLines s generalizing text <;> grind

/-- Reads a quoted text of any kind. Two quotes that no third one follows are an empty text on one
line. -/
def readText : List Char → Option (List Char × List Char)
  | '"' :: '"' :: '"' :: rest => readBasicLines (skipFirstNewline rest)
  | '"' :: rest => readBasic rest
  | '\'' :: '\'' :: '\'' :: rest => readLiteralLines (skipFirstNewline rest)
  | '\'' :: rest => readLiteral rest
  | _ => none

/-- A text of any kind has a quote at its end. -/
theorem length_lt_of_readText {s text rest : List Char} (h : readText s = some (text, rest)) :
    rest.length < s.length := by
  have h₁ := @length_lt_of_readBasic
  have h₂ := @length_lt_of_readBasicLines
  have h₃ := @length_lt_of_readLiteral
  have h₄ := @length_lt_of_readLiteralLines
  have hf := length_skipFirstNewline_le
  unfold readText at h
  split at h <;> grind

end BrokerAgent.Toml
