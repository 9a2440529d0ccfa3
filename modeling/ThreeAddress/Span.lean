import ThreeAddress.Fault
import ThreeAddress.Text.Bytes
import ThreeAddress.Text.Lines

/-!
# Spans of source text

A span is a range of bytes of a source: an offset and a length. A span need not lie inside the
source, nor start at a character. `Span.lineCol` gives the line and column of its start, and
`Span.excerpt` the lines around it.
-/

namespace ThreeAddress

/-- A range of bytes of a source text. -/
structure Span where
  offset : Nat
  len : Nat
deriving Repr, DecidableEq, Inhabited

/-- A source line in an excerpt. `number` counts from 1; `col` is the column of the span on the
line where it starts, and 0 on the lines around it. -/
structure SourceLine where
  number : Nat
  col : Nat
  text : String
deriving Repr, DecidableEq

namespace Span

/-- Whether the span covers no bytes. -/
def isEmpty (s : Span) : Bool :=
  s.len == 0

/-- The empty span right after this one. -/
def after (s : Span) : Except Fault Span :=
  return ⟨← addWords s.offset s.len, 0⟩

/-- The span as log messages show it. -/
def describe (s : Span) : String :=
  s!"Span \x7b offset: {s.offset}, len: {s.len} \x7d"

/-- The source before the start of the span. A start inside a character counts as the start of
that character, and one past the end as the end. -/
def before (s : Span) (source : String) : List Char :=
  Text.takeWithin s.offset source.toList

/-- The line (from 1) and the column (from 0, in characters) of the start of the span. -/
def lineCol (s : Span) (source : String) : Nat × Nat :=
  ((s.before source).count '\n' + 1, (Text.lastLine (s.before source)).length)

/-- The lines of the source from `linesBefore` lines above the start of the span to `linesAfter`
lines below it. -/
def excerpt (s : Span) (source : String) (linesBefore linesAfter : Nat) : List SourceLine :=
  let (line, col) := s.lineCol source
  (Text.lines source.toList).zipIdx 1 |>.filterMap fun (text, number) =>
    if line - linesBefore ≤ number ∧ number ≤ line + linesAfter then
      some ⟨number, if number = line then col else 0, String.ofList text⟩
    else none

end Span

end ThreeAddress
