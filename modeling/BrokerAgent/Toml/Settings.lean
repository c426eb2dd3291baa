import BrokerAgent.Toml.Document
import BrokerAgent.Toml.Report

/-!
# Settings from TOML

The entries of a document's own table are taken in their order. Unknown keys are passed over, what
is not given is empty, and the first value of a wrong shape is reported. The main definition is
`Settings.ofToml`.
-/

namespace BrokerAgent.Toml

/-- A value of a wrong shape. -/
structure Mismatch where
  found : Shape.Found
  wanted : Shape.Wanted
  span : Span

/-- The text that a value is. -/
def stringOf (key : Span) : Node → Except Mismatch String
  | .scalar (.text value) _ => .ok (String.ofList value)
  | node => .error ⟨node.found, .text, node.span key⟩

/-- The list of texts that a value is. -/
def stringsOf (key : Span) : Node → Except Mismatch (List String)
  | .list items _ => items.mapM (stringOf key)
  | .tables earlier last => .error ⟨.map, .text, (Node.table (earlier.headD last)).span key⟩
  | node => .error ⟨node.found, .sequence, node.span key⟩

/-- Takes one entry into a record. -/
def takeEntry (record : Settings) (entry : Key × Node) : Except Mismatch Settings :=
  let (key, node) := entry
  match Field.ofName? (String.ofList key.name) with
  | none => .ok record
  | some .protocols => do return { record with protocols := ← stringsOf key.span node }
  | some .addresses => do return { record with addresses := ← stringsOf key.span node }
  | some .id => do return { record with id := ← stringOf key.span node }
  | some .secret => do return { record with secret := ← stringOf key.span node }

/-- The record of a document's table. -/
def settings (t : Table) : Except Mismatch Settings :=
  t.entries.foldlM takeEntry {}

end BrokerAgent.Toml

namespace BrokerAgent

/-- Reads a record from a TOML text. -/
def Settings.ofToml (text : List Char) : Except Toml.Report Settings :=
  match Toml.document text with
  | none => .error (@Toml.Report.malformed text)
  | some table =>
    (Toml.settings table).mapError fun m => .wrongShape m.found m.wanted (.of text m.span)

end BrokerAgent
