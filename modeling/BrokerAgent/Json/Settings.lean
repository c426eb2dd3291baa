import BrokerAgent.Json.Skip

/-!
# Settings from JSON

A JSON text gives a record in two forms: an object, whose unknown members are passed over, and a
list of the fields in the record's order, which may end early. What a text does not give is empty.
The main definition is `Settings.ofJson`.
-/

namespace BrokerAgent.Json

/-! ## Lists and objects -/

/-- What a reader of a list or an object meets: its end, with the text after it, or another entry,
with the text of the entry. -/
inductive Next
  | closed (rest : List Char)
  | entry (rest : List Char)
deriving DecidableEq, Repr

/-- Goes to the next item of a list. The first one has no comma before it. -/
def nextItem (first : Bool) (s : List Char) : Except Fault Next :=
  match skipSpace s with
  | [] => faultAt .endInList []
  | c :: rest =>
    if c = ']' then .ok (.closed rest)
    else if first then .ok (.entry (c :: rest))
    else if c = ',' then
      match skipSpace rest with
      | [] => faultAt .endInValue []
      | d :: rest =>
        if d = ']' then faultAt .trailingComma (d :: rest) else .ok (.entry (d :: rest))
    else faultAt .listCommaExpected (c :: rest)

/-- Goes to the next member of an object, past the quote that opens its key. -/
def nextMember (first : Bool) (s : List Char) : Except Fault Next :=
  match skipSpace s with
  | [] => faultAt .endInObject []
  | c :: rest =>
    if c = '\x7d' then .ok (.closed rest)
    else if first then
      if c = '"' then .ok (.entry rest) else faultAt .keyNotText (c :: rest)
    else if c = ',' then
      match skipSpace rest with
      | [] => faultAt .endInValue []
      | d :: rest =>
        if d = '"' then .ok (.entry rest)
        else if d = '\x7d' then faultAt .trailingComma (d :: rest)
        else faultAt .keyNotText (d :: rest)
    else faultAt .objectCommaExpected (c :: rest)

/-- The next item of a list begins no earlier than the list goes on. -/
theorem length_le_of_nextItem {first : Bool} {s rest : List Char}
    (h : nextItem first s = .ok (.entry rest)) : rest.length ≤ s.length := by
  unfold nextItem at h
  split at h
  · simp [faultAt] at h
  · rename_i c tail hs
    have := length_lt_of_skipSpace hs
    split at h
    · simp at h
    split at h
    · simp only [Except.ok.injEq, Next.entry.injEq] at h
      rw [← h, List.length_cons]
      omega
    split at h
    · split at h
      · simp [faultAt] at h
      · rename_i d last ht
        have := length_lt_of_skipSpace ht
        split at h
        · simp [faultAt] at h
        · simp only [Except.ok.injEq, Next.entry.injEq] at h
          rw [← h, List.length_cons]
          omega
    · simp [faultAt] at h

/-- The next member of an object begins no earlier than the object goes on. -/
theorem length_le_of_nextMember {first : Bool} {s rest : List Char}
    (h : nextMember first s = .ok (.entry rest)) : rest.length ≤ s.length := by
  unfold nextMember at h
  split at h
  · simp [faultAt] at h
  · rename_i c tail hs
    have := length_lt_of_skipSpace hs
    split at h
    · simp at h
    split at h
    · split at h
      · simp only [Except.ok.injEq, Next.entry.injEq] at h
        rw [← h]
        omega
      · simp [faultAt] at h
    split at h
    · split at h
      · simp [faultAt] at h
      · rename_i d last ht
        have := length_lt_of_skipSpace ht
        split at h
        · simp only [Except.ok.injEq, Next.entry.injEq] at h
          rw [← h]
          omega
        · split at h <;> simp [faultAt] at h
    · simp [faultAt] at h

/-- Passes over the colon between a key and its value. -/
def readColon (s : List Char) : Except Fault (List Char) :=
  match skipSpace s with
  | [] => faultAt .endInObject []
  | c :: rest => if c = ':' then .ok rest else faultAt .colonExpected (c :: rest)

/-- A colon is read before the value. -/
theorem length_lt_of_readColon {s rest : List Char} (h : readColon s = .ok rest) :
    rest.length < s.length := by
  unfold readColon at h
  split at h
  · simp [faultAt] at h
  · rename_i c tail hs
    have := length_lt_of_skipSpace hs
    split at h
    · simp only [Except.ok.injEq] at h
      rw [← h]
      omega
    · simp [faultAt] at h

/-- Accepts the end of the text after the blanks, and nothing else. -/
def readEnd (s : List Char) : Except Fault Unit :=
  match skipSpace s with
  | [] => .ok ()
  | rest => faultAt .trailingCharacters rest

/-! ## Values of a wanted shape -/

/-- Ends a value without parts that stands where something else is wanted. -/
def misplaced {α : Type} (wanted : Shape.Wanted) (found : Shape.Found) (rest : List Char) :
    Except Fault α :=
  faultHere (.wrongShape found wanted) rest

/-- The fault of a value that begins with `c` and does not have the wanted shape. A value without
parts is read to its end first, so that a fault inside it is found. -/
def refuse {α : Type} (wanted : Shape.Wanted) (c : Char) (rest : List Char) : Except Fault α :=
  if c = 'n' then readWord ['u', 'l', 'l'] rest >>= misplaced wanted .null
  else if c = 't' then readWord ['r', 'u', 'e'] rest >>= misplaced wanted (.boolean true)
  else if c = 'f' then readWord ['a', 'l', 's', 'e'] rest >>= misplaced wanted (.boolean false)
  else if c = '-' then
    readNumber true rest >>= fun (number, rest) => misplaced wanted number.found rest
  else if c.isDigit then
    readNumber false (c :: rest) >>= fun (number, rest) => misplaced wanted number.found rest
  else if c = '"' then
    readText rest >>= fun (text, rest) => misplaced wanted (.text text) rest
  else if c = '[' then misplaced wanted .sequence (c :: rest)
  else if c = '\x7b' then misplaced wanted .map (c :: rest)
  else faultAt .valueExpected (c :: rest)

/-- Reads a quoted text. -/
def readString (s : List Char) : Reading String :=
  match skipSpace s with
  | [] => faultAt .endInValue []
  | c :: rest =>
    if c = '"' then
      match readText rest with
      | .error fault => .error fault
      | .ok (text, rest) => .ok (String.ofList text, rest)
    else refuse .text c rest

/-- A value of the wrong shape is never accepted. -/
theorem refuse_ne_ok {α : Type} (wanted : Shape.Wanted) (c : Char) (rest : List Char) (a : α) :
    refuse wanted c rest ≠ .ok a := by
  unfold refuse
  have h : ∀ {β : Type} (r : Except Fault β) (f : β → Except Fault α),
      (∀ b, f b ≠ .ok a) → r >>= f ≠ .ok a := by
    intro β r f hf
    cases r with
    | error fault => simp [bind, Except.bind]
    | ok b => exact hf b
  have hm : ∀ found rest, misplaced wanted found rest ≠ Except.ok a := by
    intro found rest
    simp [misplaced, faultHere]
  repeat' split
  all_goals first
    | exact h _ _ fun _ => hm _ _
    | exact hm _ _
    | simp [faultAt]

/-- A text has a quote at least. -/
theorem length_lt_of_readString {s rest : List Char} {text : String}
    (h : readString s = .ok (text, rest)) : rest.length < s.length := by
  unfold readString at h
  split at h
  · simp [faultAt] at h
  · rename_i c tail hs
    have := length_lt_of_skipSpace hs
    split at h
    · split at h
      · simp at h
      · rename_i ht
        have := length_lt_of_readText ht
        simp only [Except.ok.injEq, Prod.mk.injEq] at h
        rw [← h.2]
        omega
    · exact absurd h (refuse_ne_ok _ _ _ _)

/-- Reads the items of a list of texts, up to its closing bracket. -/
def readItems (first : Bool) (s : List Char) : Reading (List String) :=
  match _h : nextItem first s with
  | .error fault => .error fault
  | .ok (.closed rest) => .ok ([], rest)
  | .ok (.entry rest) =>
    match _hs : readString rest with
    | .error fault => .error fault
    | .ok (item, rest') =>
      match readItems false rest' with
      | .error fault => .error fault
      | .ok (items, after) => .ok (item :: items, after)
termination_by s.length
decreasing_by
  have := length_le_of_nextItem _h
  have := length_lt_of_readString _hs
  omega

/-- Reads a list of texts. -/
def readStrings (s : List Char) : Reading (List String) :=
  match skipSpace s with
  | [] => faultAt .endInValue []
  | c :: rest => if c = '[' then readItems true rest else refuse .sequence c rest

/-- A list is closed by a bracket. -/
theorem length_lt_of_nextItem_closed {first : Bool} {s rest : List Char}
    (h : nextItem first s = .ok (.closed rest)) : rest.length < s.length := by
  unfold nextItem at h
  split at h
  · simp [faultAt] at h
  · rename_i c tail hs
    have := length_lt_of_skipSpace hs
    split at h
    · simp only [Except.ok.injEq, Next.closed.injEq] at h
      rw [← h]
      omega
    split at h
    · simp at h
    split at h
    · split at h
      · simp [faultAt] at h
      · split at h <;> simp [faultAt] at h
    · simp [faultAt] at h

/-- The items of a list end behind its bracket. -/
theorem length_lt_of_readItems {first : Bool} {s rest : List Char} {items : List String}
    (h : readItems first s = .ok (items, rest)) : rest.length < s.length := by
  fun_induction readItems first s generalizing items with
  | case1 | case3 | case4 => simp at h
  | case2 first s tail hn =>
    simp only [Except.ok.injEq, Prod.mk.injEq] at h
    have := length_lt_of_nextItem_closed hn
    rw [← h.2]
    omega
  | case5 first s tail hn item after hs items' last hr ih =>
    simp only [Except.ok.injEq, Prod.mk.injEq] at h
    have := length_le_of_nextItem hn
    have := length_lt_of_readString hs
    have := ih (h.2 ▸ hr)
    omega

/-- A list of texts has a bracket at least. -/
theorem length_lt_of_readStrings {s rest : List Char} {items : List String}
    (h : readStrings s = .ok (items, rest)) : rest.length < s.length := by
  unfold readStrings at h
  split at h
  · simp [faultAt] at h
  · rename_i c tail hs
    have := length_lt_of_skipSpace hs
    split at h
    · have := length_lt_of_readItems h
      omega
    · exact absurd h (refuse_ne_ok _ _ _ _)

/-! ## The record -/

/-- Reads the value of a field into a record. -/
def readField (field : Field) (record : Settings) (s : List Char) : Reading Settings :=
  match field with
  | .protocols => (readStrings s).mapValue fun items => { record with protocols := items }
  | .addresses => (readStrings s).mapValue fun items => { record with addresses := items }
  | .id => (readString s).mapValue fun text => { record with id := text }
  | .secret => (readString s).mapValue fun text => { record with secret := text }

/-- The value of a field has a character at least. -/
theorem length_lt_of_readField {field : Field} {record new : Settings} {s rest : List Char}
    (h : readField field record s = .ok (new, rest)) : rest.length < s.length := by
  cases field with
  | protocols | addresses =>
    obtain ⟨_, hr, _⟩ := Reading.mapValue_eq_ok.1 h
    exact length_lt_of_readStrings hr
  | id | secret =>
    obtain ⟨_, hr, _⟩ := Reading.mapValue_eq_ok.1 h
    exact length_lt_of_readString hr

/-- The point at which a repeated key is reported: after the blanks that follow it, and after the
bracket that closes the object if that comes next. -/
def pastRepeated (s : List Char) : List Char :=
  match skipSpace s with
  | [] => []
  | c :: rest => if c = '\x7d' then rest else c :: rest

/-- Reads the members of an object into a record. `seen` holds the fields that have been given. -/
def readMembers (seen : List Field) (record : Settings) (first : Bool) (s : List Char) :
    Reading Settings :=
  match _h : nextMember first s with
  | .error fault => .error fault
  | .ok (.closed rest) => .ok (record, rest)
  | .ok (.entry rest) =>
    match _hk : readText rest with
    | .error fault => .error fault
    | .ok (key, rest') =>
      match Field.ofName? (String.ofList key) with
      | none =>
        match _hc : readColon rest' with
        | .error fault => .error fault
        | .ok value =>
          match _hv : skipFrom .value [] value with
          | .error fault => .error fault
          | .ok after => readMembers seen record false after
      | some field =>
        if field ∈ seen then faultHere (.repeatedField field) (pastRepeated rest')
        else
          match _hc : readColon rest' with
          | .error fault => .error fault
          | .ok value =>
            match _hv : readField field record value with
            | .error fault => .error fault
            | .ok (record', after) => readMembers (field :: seen) record' false after
termination_by s.length
decreasing_by
  all_goals
    have h₁ := length_le_of_nextMember _h
    have h₂ := length_lt_of_readText _hk
    have h₃ := length_lt_of_readColon _hc
  · have h₄ := length_le_of_skipFrom _hv
    omega
  · have h₄ := length_lt_of_readField _hv
    omega

/-- Ends a list that gave every field: nothing may follow but its bracket. -/
def readClosing (s : List Char) : Except Fault (List Char) :=
  match skipSpace s with
  | [] => faultAt .endInList []
  | c :: rest =>
    if c = ']' then .ok rest
    else if c = ',' then
      match skipSpace rest with
      | [] => faultAt .trailingCharacters []
      | d :: rest =>
        if d = ']' then faultAt .trailingComma (d :: rest)
        else faultAt .trailingCharacters (d :: rest)
    else faultAt .trailingCharacters (c :: rest)

/-- Reads the items of a list into the given fields of a record, one after the other. -/
def readPositions (fields : List Field) (record : Settings) (first : Bool) (s : List Char) :
    Reading Settings :=
  match fields with
  | [] => (readClosing s).map fun rest => (record, rest)
  | field :: fields =>
    match nextItem first s with
    | .error fault => .error fault
    | .ok (.closed rest) => .ok (record, rest)
    | .ok (.entry rest) =>
      match readField field record rest with
      | .error fault => .error fault
      | .ok (record, rest) => readPositions fields record false rest

/-- Reads a record in either form. -/
def readSettings (s : List Char) : Reading Settings :=
  match skipSpace s with
  | [] => faultAt .endInValue []
  | c :: rest =>
    if c = '\x7b' then readMembers [] {} true rest
    else if c = '[' then readPositions Field.all {} true rest
    else refuse .settings c rest

/-- The record that a whole text gives. -/
def settings (text : List Char) : Except Fault Settings :=
  match readSettings text with
  | .error fault => .error fault
  | .ok (record, rest) => (readEnd rest).map fun _ => record

end BrokerAgent.Json

namespace BrokerAgent

/-- Reads a record from a JSON text. -/
def Settings.ofJson (text : List Char) : Except Json.Report Settings :=
  (Json.settings text).mapError (Json.Fault.report text)

end BrokerAgent
