/-!
# Positions and spans

Places in a text. Lines are those that line feeds end, lines and columns count from one and offsets
from zero, and columns and offsets count code points. The numbers are integers, since a diagnostic
is also drawn for positions that are not in its text.
-/

namespace JackSyntax

/-- A place in a text. -/
structure Position where
  /-- The line, from one. -/
  line : Int
  /-- The column, from one. -/
  column : Int
  /-- The number of code points before it. -/
  offset : Int
deriving DecidableEq, Repr

/-- The place one column on, on the same line. -/
def Position.succ (p : Position) : Position :=
  ⟨p.line, p.column + 1, p.offset + 1⟩

/-- A part of a text, from one place up to another. -/
structure Span where
  /-- Where the part begins. -/
  start : Position
  /-- Where it has ended. -/
  stop : Position
deriving DecidableEq, Repr

/-- The span of one column. -/
def Span.singleton (p : Position) : Span :=
  ⟨p, p.succ⟩

/-- The span without extent. -/
def Span.empty (p : Position) : Span :=
  ⟨p, p⟩

end JackSyntax
