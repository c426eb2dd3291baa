import BrokerAgent.Text.Utf8

/-!
# Places in a text

A reader works on the characters that are left, so it remembers a point of the text as the part
that follows it. `Mark` is such a point, with a number of bytes by which a report points past it;
`Mark.place` turns it into a line and a column, counted in bytes. `Span` is a stretch between two
such points.
-/

namespace BrokerAgent

/-- A line, counted from 1, and the number of bytes read on it. -/
structure Place where
  line : Nat
  column : Nat
deriving DecidableEq, Repr

namespace Place

/-- The beginning of every text. -/
def start : Place := ⟨1, 0⟩

/-- One byte further: a line feed begins the next line. -/
def advance (p : Place) (b : UInt8) : Place :=
  if b = 10 then ⟨p.line + 1, 0⟩ else ⟨p.line, p.column + 1⟩

/-- The place reached after the given bytes. -/
def after (bytes : List UInt8) : Place :=
  bytes.foldl advance start

end Place

/-- A point of a text: what follows it, and how many bytes past it a report points. -/
structure Mark where
  rest : List Char
  past : Nat
deriving DecidableEq, Repr

namespace Mark

/-- Just before `rest`. -/
def here (rest : List Char) : Mark := ⟨rest, 0⟩

/-- Past the first byte of `rest`, the one that was looked at. -/
def peek (rest : List Char) : Mark := ⟨rest, 1⟩

/-- The place of a mark in the text it was made in. It never lies past the end. -/
def place (text : List Char) (m : Mark) : Place :=
  Place.after ((Utf8.encode text).take (Utf8.size text - Utf8.size m.rest + m.past))

end Mark

/-- A stretch of a text, given by what follows its two ends. -/
structure Span where
  start : List Char
  stop : List Char
deriving DecidableEq, Repr

/-- How many bytes a span covers. -/
def Span.size (s : Span) : Nat :=
  Utf8.size s.start - Utf8.size s.stop

end BrokerAgent
