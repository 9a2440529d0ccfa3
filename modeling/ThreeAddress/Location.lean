import ThreeAddress.Span

/-!
# Locations and located reports

A location is a span together with what is needed to show it: its line and column, the number of
characters it covers, and the lines around it. `Location.report` prints a message with the
excerpt and a marker under the span: a run of `~` as wide as the span, or a `^` if it is empty.
-/

namespace ThreeAddress

/-- A span resolved in its source. -/
structure Location where
  span : Span
  line : Nat
  col : Nat
  width : Nat
  excerpt : List SourceLine
deriving Repr, DecidableEq

namespace Location

/-- The number of lines shown on either side of a location. -/
def margin : Nat := 2

/-- Resolves a span in a source. The width counts characters when the span, cut at the end of the
source, starts and ends at characters; otherwise it is the length of the span, and there has to
be room for a marker of that many bytes. -/
def resolve (source : String) (span : Span) : Except Fault Location := do
  let (line, col) := span.lineCol source
  let size := source.utf8ByteSize
  let stop ← addWords span.offset span.len
  let covered := Text.slice? (min span.offset size) (min stop size) source.toList
  let width ← match covered with
    | some text => pure text.length
    | none => textSize span.len
  return {
    span, line, col, width
    excerpt := span.excerpt source margin margin }

/-- The width of the column of line numbers. -/
def gutter (l : Location) : Nat :=
  (toString ((l.excerpt.map SourceLine.number).max?.getD 0)).length

/-- The marker under the span, for the line on which the span starts. -/
def marker (l : Location) (line : SourceLine) : String :=
  let margin := String.ofList (List.replicate (l.gutter + 3) ' ')
  if 0 < l.width then
    margin ++ String.ofList (List.replicate line.col ' ')
      ++ String.ofList (List.replicate l.width '~') ++ "\n"
  else
    margin ++ String.ofList (List.replicate line.col '-') ++ "^\n"

/-- A line of the excerpt behind its number. -/
def numbered (l : Location) (line : SourceLine) : String :=
  Text.padLeft ' ' l.gutter (toString line.number) ++ " | " ++ Text.trimEnd line.text ++ "\n"

/-- A line of the excerpt, with the marker if the span starts on it. -/
def excerptLine (l : Location) (line : SourceLine) : String :=
  l.numbered line ++ if line.number = l.line then l.marker line else ""

/-- The position and the marked excerpt. -/
def rendered (l : Location) : String :=
  s!"  -> {l.line}:{l.col + 1}\n" ++ String.join (l.excerpt.map l.excerptLine)

/-- A message on a line of its own, followed by the location if there is one. -/
def report (message : String) (location : Option Location) : String :=
  message ++ "\n" ++ (location.map Location.rendered).getD ""

end Location

end ThreeAddress
