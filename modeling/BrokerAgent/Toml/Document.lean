import BrokerAgent.Toml.Value

/-!
# TOML documents

A document is a sequence of statements, headers and assignments, each on lines of its own.
`readStatements` reads them and `Table.ofStatements` builds the tree of tables; `document` does
both. Either refuses by `none`.
-/

namespace BrokerAgent.Toml

/-- A line of a document that says something: the header of a table, of one that may be repeated
or not, or an assignment with the text after its value. -/
inductive Statement
  | header (repeatable : Bool) (path : List Key) (key : Key) (span : Span)
  | assignment (target : Assignment) (stop : List Char)

/-! ## Statements -/

/-- Reads a header, which begins with a bracket. -/
def readHeader (s : List Char) : Option (Statement × List Char) :=
  match s with
  | '[' :: '[' :: rest =>
    match readPath rest with
    | some ((path, key), ']' :: ']' :: rest) => some (.header true path key ⟨s, rest⟩, rest)
    | _ => none
  | '[' :: rest =>
    match readPath rest with
    | some ((path, key), ']' :: rest) => some (.header false path key ⟨s, rest⟩, rest)
    | _ => none
  | _ => none

/-- Reads an assignment. -/
def readAssignment (s : List Char) : Option (Statement × List Char) :=
  match readTarget s with
  | none => none
  | some ((path, key), rest) =>
    match readValue rest with
    | none => none
    | some (value, rest) => some (.assignment ⟨path, key, value⟩ rest, rest)

/-- Reads a statement and the end of its line. -/
def readStatement (s : List Char) : Option (Statement × List Char) :=
  match (if s.head? = some '[' then readHeader s else readAssignment s) with
  | none => none
  | some (statement, rest) =>
    match readLineEnd rest with
    | none => none
    | some rest => some (statement, rest)

/-- A statement has a character at least. -/
theorem length_lt_of_readStatement {s rest : List Char} {statement : Statement}
    (h : readStatement s = some (statement, rest)) : rest.length < s.length := by
  have hp := @length_lt_of_readParts maxDepth
  have ht := @length_lt_of_readTarget
  have hv := @length_le_of_readFrom .value []
  have he := @length_le_of_readLineEnd
  have hh : ∀ {statement rest}, readHeader s = some (statement, rest) →
      rest.length < s.length := by
    intro statement rest h
    unfold readHeader readPath at h
    split at h <;> grind
  have ha : ∀ {statement rest}, readAssignment s = some (statement, rest) →
      rest.length < s.length := by
    intro statement rest h
    unfold readAssignment readValue at h
    grind
  unfold readStatement at h
  grind

/-- Reads all statements up to the end of the text. Blank lines and lines with nothing but a
comment say nothing. -/
def readStatements (s : List Char) : Option (List Statement) :=
  match _h : skipBlanks s with
  | [] => some []
  | c :: rest =>
    if c = '#' ∨ c = '\n' ∨ c = '\r' then
      match _hl : readLineEnd (c :: rest) with
      | none => none
      | some rest' => readStatements rest'
    else
      match _hs : readStatement (c :: rest) with
      | none => none
      | some (statement, rest') =>
        match readStatements rest' with
        | none => none
        | some statements => some (statement :: statements)
termination_by s.length
decreasing_by
  · have := length_lt_of_readLineEnd _hl (by simp)
    have := length_skipBlanks_le s
    rw [_h] at this
    omega
  · have := length_lt_of_readStatement _hs
    have := length_skipBlanks_le s
    rw [_h] at this
    omega

/-! ## The tree of tables -/

/-- What has been built of a document: the tables that are complete, and the one that assignments
go to, with the header it stands under if it stands under one. -/
structure Building where
  root : Table
  header : Option (Bool × List Key × Key)
  current : Table

namespace Building

/-- Nothing has been built, and assignments go to the table of the whole document. -/
def start : Building :=
  ⟨.empty .header none, none, .empty .header none⟩

/-- Puts the table of a header into the table above it: as its entry, or after those of the same
repeatable header. -/
def attach (repeatable : Bool) (key : Key) (child parent : Table) : Option (Unit × Table) :=
  match repeatable, parent.get? key.name with
  | false, none => some ((), parent.append key (.table child))
  | true, none => some ((), parent.append key (.tables [] child))
  | true, some (.tables earlier last) =>
    some ((), parent.replace key.name (.tables (earlier ++ [last]) child))
  | _, _ => none

/-- Completes the table that assignments went to and gives the whole. -/
def finish (b : Building) : Option Table :=
  match b.header with
  | none => some b.current
  | some (repeatable, path, key) =>
    (b.root.modify false (attach repeatable key b.current) path).map (·.2)

/-- Takes the table that a header begins out of the table above it. A header for one table may
come after headers for tables inside it, whose entries it keeps; a repeatable header may come
again. Otherwise the name must be free. -/
def detach (repeatable : Bool) (key : Key) (parent : Table) :
    Option (List (Key × Node) × Table) :=
  match repeatable, parent.get? key.name with
  | _, none => some ([], parent)
  | false, some (.table t) =>
    if t.origin = .subheader then some (t.entries, parent.erase key.name) else none
  | true, some (.tables ..) => some ([], parent)
  | _, _ => none

/-- Takes one statement into account. -/
def step (b : Building) : Statement → Option Building
  | .header repeatable path key span => do
    let root ← b.finish
    let (entries, root) ← root.modify false (detach repeatable key) path
    return ⟨root, some (repeatable, path, key), .mk .header (some span) entries⟩
  | .assignment target stop => do
    let current ← (b.current.extendTo stop).assign target.path target.key target.value
    return { b with current }

end Building

/-- The table of a whole document. -/
def Table.ofStatements (statements : List Statement) : Option Table := do
  (← statements.foldlM Building.step Building.start).finish

/-- Passes over a byte order mark at the beginning. -/
def skipByteOrderMark : List Char → List Char
  | '\uFEFF' :: rest => rest
  | rest => rest

/-- The table that a text gives, if it is a document. -/
def document (text : List Char) : Option Table := do
  Table.ofStatements (← readStatements (skipByteOrderMark text))

end BrokerAgent.Toml
