import BrokerAgent.Json.Number

/-!
# Values that nobody looks at

The value of an unknown key is passed over. `skipFrom` checks that it is well written and gives what
follows it. The lists and objects that are still open are kept as a list of frames, so that the
depth of a value is not limited by anything.
-/

namespace BrokerAgent.Json

/-- A list or an object that has been opened. -/
inductive Frame
  | list
  | object
deriving DecidableEq, Repr

namespace Frame

/-- The bracket that closes a frame. -/
def closing : Frame → Char
  | list => ']'
  | object => '\x7d'

/-- The text ended inside a frame. -/
def ended : Frame → Cause
  | list => .endInList
  | object => .endInObject

/-- Neither a comma nor the closing bracket follows a value. -/
def commaExpected : Frame → Cause
  | list => .listCommaExpected
  | object => .objectCommaExpected

end Frame

/-- Passes over the name of a member and its colon. -/
def skipName (s : List Char) : Except Fault (List Char) :=
  match skipSpace s with
  | [] => faultAt .endInObject []
  | c :: rest =>
    if c = '"' then
      match skipText rest with
      | .error fault => .error fault
      | .ok rest =>
        match skipSpace rest with
        | [] => faultAt .endInObject []
        | d :: rest => if d = ':' then .ok rest else faultAt .colonExpected (d :: rest)
    else faultAt .keyNotText (c :: rest)

/-- The name of a member has a quote at least. -/
theorem length_lt_of_skipName {s rest : List Char} (h : skipName s = .ok rest) :
    rest.length < s.length := by
  unfold skipName at h
  split at h
  · simp [faultAt] at h
  · rename_i c tail hc
    have := length_lt_of_skipSpace hc
    split at h
    · split at h
      · simp at h
      · rename_i after ht
        have := length_lt_of_skipText ht
        split at h
        · simp [faultAt] at h
        · rename_i d last hl
          have := length_lt_of_skipSpace hl
          split at h
          · simp only [Except.ok.injEq] at h
            rw [← h]
            omega
          · simp [faultAt] at h
    · simp [faultAt] at h

/-- Passes over a value without parts, whose first character is `c`. -/
def skipScalar (c : Char) (rest : List Char) : Except Fault (List Char) :=
  if c = 'n' then readWord ['u', 'l', 'l'] rest
  else if c = 't' then readWord ['r', 'u', 'e'] rest
  else if c = 'f' then readWord ['a', 'l', 's', 'e'] rest
  else if c = '"' then skipText rest
  else if c = '-' then skipNumber rest
  else if c.isDigit then skipNumber (c :: rest)
  else faultAt .valueExpected (c :: rest)

/-- A value without parts ends no earlier than behind its first character. -/
theorem length_le_of_skipScalar {c : Char} {rest after : List Char}
    (h : skipScalar c rest = .ok after) : after.length ≤ rest.length := by
  unfold skipScalar at h
  split at h
  · exact length_le_of_readWord h
  split at h
  · exact length_le_of_readWord h
  split at h
  · exact length_le_of_readWord h
  split at h
  · exact Nat.le_of_lt (length_lt_of_skipText h)
  split at h
  · exact Nat.le_of_lt (length_lt_of_skipNumber h)
  split at h
  · have := length_lt_of_skipNumber h
    rw [List.length_cons] at this
    omega
  · simp [faultAt] at h

/-- What comes next: a value, or what follows one. -/
inductive Stage
  | value
  | after
deriving DecidableEq, Repr

/-- Passes over everything up to the end of the outermost of the `frames` that are open, or over
one value when none is. After a value comes the next one of the innermost frame, or the end of
that frame. -/
def skipFrom (stage : Stage) (frames : List Frame) (s : List Char) : Except Fault (List Char) :=
  match stage, frames with
  | .after, [] => .ok s
  | .after, frame :: outer =>
    match _h : skipSpace s with
    | [] => faultAt frame.ended []
    | c :: rest =>
      if c = ',' then
        match frame with
        | .list => skipFrom .value (.list :: outer) rest
        | .object =>
          match _hn : skipName rest with
          | .error fault => .error fault
          | .ok rest' => skipFrom .value (.object :: outer) rest'
      else if c = frame.closing then skipFrom .after outer rest
      else faultAt frame.commaExpected (c :: rest)
  | .value, frames =>
    match _h : skipSpace s with
    | [] => faultAt .endInValue []
    | c :: rest =>
      if c = '[' then
        match _h' : skipSpace rest with
        | [] => faultAt .endInList []
        | d :: rest' =>
          if d = ']' then skipFrom .after frames rest'
          else skipFrom .value (.list :: frames) (d :: rest')
      else if c = '\x7b' then
        match _h' : skipSpace rest with
        | [] => faultAt .endInObject []
        | d :: rest' =>
          if d = '\x7d' then skipFrom .after frames rest'
          else
            match _hn : skipName (d :: rest') with
            | .error fault => .error fault
            | .ok rest'' => skipFrom .value (.object :: frames) rest''
      else
        match _hn : skipScalar c rest with
        | .error fault => .error fault
        | .ok rest' => skipFrom .after frames rest'
termination_by s.length
decreasing_by
  all_goals have h₁ := length_lt_of_skipSpace _h
  · omega
  · have h₂ := length_lt_of_skipName _hn
    omega
  · omega
  · have h₂ := length_lt_of_skipSpace _h'
    omega
  · have h₂ := length_lt_of_skipSpace _h'
    rw [List.length_cons]
    omega
  · have h₂ := length_lt_of_skipSpace _h'
    omega
  · have h₂ := length_lt_of_skipSpace _h'
    have h₃ := length_lt_of_skipName _hn
    rw [List.length_cons] at h₃
    omega
  · have h₂ := length_le_of_skipScalar _hn
    omega

/-- Passing over values never adds to the text. -/
theorem length_le_of_skipFrom {stage : Stage} {frames : List Frame} {s rest : List Char}
    (h : skipFrom stage frames s = .ok rest) : rest.length ≤ s.length := by
  fun_induction skipFrom stage frames s with
  | case1 => simp_all
  | case2 | case4 | case7 | case8 | case9 | case12 | case14 | case16 => simp [faultAt] at h
  | case3 s outer tail hs ih =>
    have := length_lt_of_skipSpace hs
    have := ih h
    omega
  | case5 s outer tail after hn hs ih =>
    have := length_lt_of_skipSpace hs
    have := length_lt_of_skipName hn
    have := ih h
    omega
  | case6 s frame outer tail hs _ ih =>
    have := length_lt_of_skipSpace hs
    have := ih h
    omega
  | case10 s frames tail after hs ht ih =>
    have := length_lt_of_skipSpace hs
    have := length_lt_of_skipSpace ht
    have := ih h
    omega
  | case11 s frames tail c after ht _ hs ih =>
    have := length_lt_of_skipSpace hs
    have := length_lt_of_skipSpace ht
    have := ih h
    rw [List.length_cons] at this
    omega
  | case13 s frames tail after hs _ ht ih =>
    have := length_lt_of_skipSpace hs
    have := length_lt_of_skipSpace ht
    have := ih h
    omega
  | case15 s frames tail c after ht _ last hn hs _ ih =>
    have := length_lt_of_skipSpace hs
    have := length_lt_of_skipSpace ht
    have := length_lt_of_skipName hn
    rw [List.length_cons] at this
    have := ih h
    omega
  | case17 s frames c tail hs _ _ after hn ih =>
    have := length_lt_of_skipSpace hs
    have := length_le_of_skipScalar hn
    have := ih h
    omega

end BrokerAgent.Json
