import BrokerAgent.Text.Place
import BrokerAgent.Toml.Scalar

/-!
# Tables of a TOML document

A document is a tree of tables. A table may come into being in several ways, which decide what may
be added to it later: `Origin` names them. Every value keeps the stretch of the document it was
written in. `Table.assign` adds one assignment, under the rules for dotted keys; `Table.modify`
finds the table that a header names.
-/

namespace BrokerAgent.Toml

/-- One part of a dotted key, with the stretch it was written in. -/
structure Key where
  name : List Char
  span : Span
deriving DecidableEq, Repr

/-- How a table came into being: by a header or in braces, by a header for a table inside it, or
by a dotted key. -/
inductive Origin
  | header
  | braces
  | subheader
  | dotted
deriving DecidableEq, Repr

mutual

/-- A value: one without parts, a list, a table, or the tables of repeated headers, of which there
is at least one. -/
inductive Node
  | scalar (value : Scalar) (span : Span)
  | list (items : List Node) (span : Span)
  | table (table : Table)
  | tables (earlier : List Table) (last : Table)

/-- A table: where it comes from, where it stands if it stands in one piece, and its entries in
the order in which they were added. -/
inductive Table
  | mk (origin : Origin) (span : Option Span) (entries : List (Key × Node))

end

namespace Table

/-- How a table came into being. -/
def origin : Table → Origin
  | mk origin _ _ => origin

/-- Where a table stands. -/
def span? : Table → Option Span
  | mk _ span _ => span

/-- The entries of a table. -/
def entries : Table → List (Key × Node)
  | mk _ _ entries => entries

/-- A table without entries. -/
def empty (origin : Origin) (span : Option Span) : Table :=
  mk origin span []

/-- The value of a key. -/
def get? (name : List Char) (t : Table) : Option Node :=
  (t.entries.find? fun entry => entry.1.name = name).map (·.2)

/-- Adds an entry after all others. -/
def append (key : Key) (node : Node) (t : Table) : Table :=
  mk t.origin t.span? (t.entries ++ [(key, node)])

/-- Changes the value of a key in its place. -/
def replace (name : List Char) (node : Node) (t : Table) : Table :=
  mk t.origin t.span? (t.entries.map fun entry =>
    if entry.1.name = name then (entry.1, node) else entry)

/-- Removes a key. -/
def erase (name : List Char) (t : Table) : Table :=
  mk t.origin t.span? (t.entries.filter fun entry => entry.1.name ≠ name)

/-- Moves the end of a table that stands in one piece. -/
def extendTo (stop : List Char) (t : Table) : Table :=
  mk t.origin (t.span?.map fun span => { span with stop := stop }) t.entries

/-- Whether a dotted key may lead through a table: through one in braces or under a header of its
own it may not. -/
def admitsDotted (t : Table) : Bool :=
  t.origin = .subheader || t.origin = .dotted

/-- Changes the table that a path leads to and gives what the change gives besides. Tables that
are missing on the way are made; of repeated tables the last one is meant. The parts of a dotted
key may not lead through tables that are complete, headers may lead through all but those in
braces. -/
def modify {α : Type} (dotted : Bool) (change : Table → Option (α × Table)) :
    List Key → Table → Option (α × Table)
  | [], t => change t
  | key :: path, t =>
    match t.get? key.name with
    | none => do
      let new := empty (if dotted then .dotted else .subheader) none
      let (a, new) ← modify dotted change path new
      return (a, t.append key (.table new))
    | some (.table inner) =>
      if (if dotted then inner.admitsDotted else inner.origin ≠ .braces) then do
        let (a, inner) ← modify dotted change path inner
        return (a, t.replace key.name (.table inner))
      else none
    | some (.tables earlier last) => do
      let (a, last) ← modify dotted change path last
      return (a, t.replace key.name (.tables earlier last))
    | some _ => none

/-- Adds the entry of an assignment to the table that its key leads to. A table made by dotted
keys takes nothing but dotted keys, any other table nothing that a dotted key leads to; a name is
given once. -/
def addEntry (plain : Bool) (key : Key) (node : Node) (t : Table) : Option (Unit × Table) :=
  if (t.origin = .dotted) = plain then none
  else if (t.get? key.name).isSome then none
  else some ((), t.append key node)

/-- Adds one assignment. -/
def assign (path : List Key) (key : Key) (node : Node) (t : Table) : Option Table :=
  (t.modify true (addEntry path.isEmpty key node) path).map (·.2)

end Table

/-- An assignment: the parts of its key, of which the last is apart, and its value. -/
structure Assignment where
  path : List Key
  key : Key
  value : Node

/-- Adds assignments, one after the other. -/
def Table.assignAll (t : Table) (assignments : List Assignment) : Option Table :=
  assignments.foldlM (fun t a => t.assign a.path a.key a.value) t

namespace Node

/-- Where a value stands. A table that does not stand in one piece is reported at its key. -/
def span (key : Span) : Node → Span
  | scalar _ span => span
  | list _ span => span
  | table t => t.span?.getD key
  | tables earlier last =>
    match (earlier.headD last).span?, last.span? with
    | some first, some last => ⟨first.start, last.stop⟩
    | _, _ => key

/-- What a value is called in a message. -/
def found : Node → Shape.Found
  | scalar value _ => value.found
  | list .. => .sequence
  | table _ => .map
  | tables .. => .sequence

end Node

end BrokerAgent.Toml
