import BrokerAgent.Shape
import BrokerAgent.Text.Place

/-!
# Reports about TOML documents

A document that is no TOML is reported as it stands: where reading it stopped and what was expected
there is not worked out. When a field of the record has a value of the wrong shape, the report shows
the line and marks the stretch of it that the value takes.
-/

namespace BrokerAgent.Toml

/-- A stretch of a text as it is shown: its line counted from 1, the characters before it on that
line, the line itself, and how many signs mark it. -/
structure Excerpt where
  line : Nat
  before : Nat
  text : List Char
  width : Nat
deriving DecidableEq, Repr

/-- What is after the last line feed, counting line feeds. -/
def lastLine (before : List Char) : Nat × List Char :=
  before.foldl
    (fun (line, read) c => if c = '\n' then (line + 1, []) else (line, c :: read)) (1, [])

/-- Shows a stretch of a text. It is marked up to the end of its line at most, by one sign at
least. -/
def Excerpt.of (text : List Char) (span : Span) : Excerpt :=
  let (line, read) := lastLine (text.take (text.length - span.start.length))
  let whole := read.reverse ++ span.start.takeWhile (· ≠ '\n')
  { line := line
    before := read.length
    text := whole
    width := max 1 (min span.size (Utf8.size whole - read.length)) }

/-- Why a document was refused: it is no TOML, or a field has a value of the wrong shape. A document
that is no TOML is kept whole, since all that can be said about it depends on nothing else. -/
inductive Report
  | malformed {document : List Char}
  | wrongShape (found : Shape.Found) (wanted : Shape.Wanted) (excerpt : Excerpt)
deriving DecidableEq, Repr

namespace Report

/-- The four lines that show an excerpt. -/
def excerptText (e : Excerpt) : String :=
  let line := toString e.line
  let margin := String.ofList (List.replicate (line.length + 1) ' ')
  "TOML parse error at line " ++ line ++ ", column " ++ toString (e.before + 1) ++ "\n" ++
    margin ++ "|\n" ++
    line ++ " | " ++ String.ofList e.text ++ "\n" ++
    margin ++ "|" ++ String.ofList (List.replicate (e.before + 1) ' ') ++
    String.ofList (List.replicate e.width '^') ++ "\n"

/-- The message of a refused document. For one that is no TOML the wording is this library's own: a
single sentence, without the place, the line and the reason that a TOML library may add to it. -/
def text : Report → String
  | malformed => "the document is not valid TOML\n"
  | wrongShape found wanted excerpt =>
    excerptText excerpt ++ Shape.mismatch .plain found wanted ++ "\n"

end Report
end BrokerAgent.Toml
