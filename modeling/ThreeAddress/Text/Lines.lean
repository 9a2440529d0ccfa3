import ThreeAddress.Text.WhiteSpace

/-!
# Lines and columns of text

`lines` cuts text at every line feed, so that a text with `n` line feeds has `n + 1` lines, the
last of which may be empty. `trimEnd` and `padLeft` bring a line into the shape in which it is
printed.
-/

namespace ThreeAddress.Text

/-- The pieces of a text between occurrences of a character; always at least one. -/
def split (separator : Char) : List Char → List (List Char)
  | [] => [[]]
  | c :: cs =>
    if c = separator then [] :: split separator cs
    else
      match split separator cs with
      | [] => [[c]]
      | piece :: pieces => (c :: piece) :: pieces

/-- The lines of a text. -/
def lines (cs : List Char) : List (List Char) :=
  split '\n' cs

/-- The characters after the last line feed. -/
def lastLine (cs : List Char) : List Char :=
  (cs.reverse.takeWhile (· ≠ '\n')).reverse

/-- A text without the white space at its end. -/
def trimEnd (s : String) : String :=
  String.ofList (s.toList.reverse.dropWhile isWhiteSpace).reverse

/-- A text brought to at least `width` characters by copies of `fill` in front. -/
def padLeft (fill : Char) (width : Nat) (s : String) : String :=
  String.ofList (List.replicate (width - s.length) fill) ++ s

/-- An instruction index as it stands in front of an instruction: at least four digits. -/
def fourDigits (n : Nat) : String :=
  padLeft '0' 4 (toString n)

end ThreeAddress.Text
