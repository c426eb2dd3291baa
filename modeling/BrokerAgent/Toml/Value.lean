import BrokerAgent.Toml.Table

/-!
# Keys and values in TOML

`readPath` reads a dotted key and `readValue` a value with all its parts. The lists and tables in
braces that are still open are kept as a list of frames, of which there may be at most `maxDepth`.
-/

namespace BrokerAgent.Toml

/-- How many lists and tables in braces may be open at a point, and how many parts a key may have.
-/
def maxDepth : Nat := 79

/-! ## Keys -/

/-- What a key without quotes is made of. -/
def isBareChar (c : Char) : Bool :=
  c.isAlphanum || c = '-' || c = '_'

/-- Reads one part of a key. -/
def readKey (s : List Char) : Option (Key × List Char) :=
  match s with
  | [] => none
  | c :: rest =>
    if c = '"' then (readBasic rest).map fun (name, rest) => (⟨name, ⟨s, rest⟩⟩, rest)
    else if c = '\'' then
      (readLiteral rest).map fun (name, rest) => (⟨name, ⟨s, rest⟩⟩, rest)
    else if isBareChar c then
      some (⟨s.takeWhile isBareChar, ⟨s, s.dropWhile isBareChar⟩⟩, s.dropWhile isBareChar)
    else none

/-- Reads at most `room` parts of a key with points between them. Gives the last part apart from
the ones before it. -/
def readParts : Nat → List Char → Option ((List Key × Key) × List Char)
  | 0, _ => none
  | room + 1, s =>
    match readKey (skipBlanks s) with
    | none => none
    | some (key, rest) =>
      match skipBlanks rest with
      | '.' :: rest =>
        match readParts room rest with
        | none => none
        | some ((path, last), rest) => some ((key :: path, last), rest)
      | rest => some (([], key), rest)

/-- Reads a dotted key with the blanks around it. -/
def readPath (s : List Char) : Option ((List Key × Key) × List Char) :=
  readParts maxDepth s

/-- A part of a key has a character at least. -/
theorem length_lt_of_readKey {s rest : List Char} {key : Key}
    (h : readKey s = some (key, rest)) : rest.length < s.length := by
  have hb := @length_lt_of_readBasic
  have hl := @length_lt_of_readLiteral
  unfold readKey at h
  split at h
  · simp at h
  · rename_i c tail
    split at h
    · simp only [Option.map_eq_some_iff, Prod.exists, Prod.mk.injEq] at h
      grind
    split at h
    · simp only [Option.map_eq_some_iff, Prod.exists, Prod.mk.injEq] at h
      grind
    split at h
    · rename_i hc
      simp only [Option.some.injEq, Prod.mk.injEq] at h
      have := (List.dropWhile_sublist (l := tail) isBareChar).length_le
      rw [← h.2, List.dropWhile_cons_of_pos hc, List.length_cons]
      omega
    · simp at h

/-- So has a dotted key. -/
theorem length_lt_of_readParts {room : Nat} {s rest : List Char} {p : List Key × Key}
    (h : readParts room s = some (p, rest)) : rest.length < s.length := by
  have hk := @length_lt_of_readKey
  have hs := length_skipBlanks_le
  fun_induction readParts room s generalizing p <;> grind

/-- Reads a dotted key, the sign of equality, and the blanks around them. -/
def readTarget (s : List Char) : Option ((List Key × Key) × List Char) :=
  match readPath s with
  | some (key, '=' :: rest) => some (key, skipBlanks rest)
  | _ => none

/-- An assignment has a sign of equality. -/
theorem length_lt_of_readTarget {s rest : List Char} {p : List Key × Key}
    (h : readTarget s = some (p, rest)) : rest.length < s.length := by
  have hp := @length_lt_of_readParts maxDepth
  have hs := length_skipBlanks_le
  unfold readTarget readPath at h
  grind

/-! ## Values -/

/-- A list or a table in braces that has been opened: where it begins, what it has so far with the
latest first, and in a table the key whose value comes next. -/
inductive Frame
  | list (start : List Char) (items : List Node)
  | braces (start : List Char) (assignments : List Assignment) (path : List Key) (key : Key)

/-- The list that ends before `rest`. -/
def closeList (start : List Char) (items : List Node) (rest : List Char) : Node :=
  .list items.reverse ⟨start, rest⟩

/-- The table in braces that ends before `rest`, unless its assignments contradict each other. -/
def closeBraces (start : List Char) (assignments : List Assignment) (rest : List Char) :
    Option Node :=
  ((Table.empty .braces (some ⟨start, rest⟩)).assignAll assignments.reverse).map .table

/-- What comes next: a value, or what follows one. -/
inductive Stage
  | value
  | after (node : Node)

/-- Reads everything up to the end of the outermost of the `frames` that are open, or one value
when none is. -/
def readFrom (stage : Stage) (frames : List Frame) (s : List Char) :
    Option (Node × List Char) :=
  match stage with
  | .value =>
    match _hs : s with
    | [] => none
    | c :: rest =>
      if c = '[' then
        if frames.length < maxDepth then
          match _h : skipLines false rest with
          | ']' :: rest' => readFrom (.after (closeList s [] rest')) frames rest'
          | rest' => readFrom .value (.list s [] :: frames) rest'
        else none
      else if c = '\x7b' then
        if frames.length < maxDepth then
          match _h : skipBlanks rest with
          | '\x7d' :: rest' =>
            readFrom (.after (.table (.empty .braces (some ⟨s, rest'⟩)))) frames rest'
          | rest' =>
            match _ht : readTarget rest' with
            | none => none
            | some ((path, key), rest'') => readFrom .value (.braces s [] path key :: frames) rest''
        else none
      else
        match _h : readScalar s with
        | none => none
        | some (value, rest') => readFrom (.after (.scalar value ⟨s, rest'⟩)) frames rest'
  | .after node =>
    match frames with
    | [] => some (node, s)
    | .list start items :: outer =>
      match _h : skipLines false s with
      | ',' :: rest =>
        match _h' : skipLines false rest with
        | ']' :: rest' => readFrom (.after (closeList start (node :: items) rest')) outer rest'
        | rest' => readFrom .value (.list start (node :: items) :: outer) rest'
      | ']' :: rest => readFrom (.after (closeList start (node :: items) rest)) outer rest
      | _ => none
    | .braces start assignments path key :: outer =>
      match _h : skipBlanks s with
      | ',' :: rest =>
        match _ht : readTarget rest with
        | none => none
        | some ((path', key'), rest') =>
          readFrom .value (.braces start (⟨path, key, node⟩ :: assignments) path' key' :: outer)
            rest'
      | '\x7d' :: rest =>
        match closeBraces start (⟨path, key, node⟩ :: assignments) rest with
        | none => none
        | some table => readFrom (.after table) outer rest
      | _ => none
termination_by s.length
decreasing_by
  all_goals
    have hl := length_skipLines_le false
    have hb := length_skipBlanks_le
    have ht := @length_lt_of_readTarget
    have hv := @length_lt_of_readScalar
    grind

/-- Reading a value never adds to the text. -/
theorem length_le_of_readFrom {stage : Stage} {frames : List Frame} {s rest : List Char}
    {node : Node} (h : readFrom stage frames s = some (node, rest)) : rest.length ≤ s.length := by
  have hl := length_skipLines_le false
  have hb := length_skipBlanks_le
  have ht := @length_lt_of_readTarget
  have hv := @length_lt_of_readScalar
  fun_induction readFrom stage frames s <;> grind

/-- Reads one value. -/
def readValue (s : List Char) : Option (Node × List Char) :=
  readFrom .value [] s

end BrokerAgent.Toml
