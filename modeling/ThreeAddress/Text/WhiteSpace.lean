import ThreeAddress.Text.CodeRange

/-!
# White space

The characters with the Unicode property *White_Space*. They separate lexemes, and they are what
trimming removes.
-/

namespace ThreeAddress.Text

/-- The code points with the property, in ascending order. -/
def whiteSpaceRanges : List CodeRange :=
  [⟨0x0009, 0x000D⟩, ⟨0x0020, 0x0020⟩, ⟨0x0085, 0x0085⟩, ⟨0x00A0, 0x00A0⟩, ⟨0x1680, 0x1680⟩,
   ⟨0x2000, 0x200A⟩, ⟨0x2028, 0x2029⟩, ⟨0x202F, 0x202F⟩, ⟨0x205F, 0x205F⟩, ⟨0x3000, 0x3000⟩]

/-- Whether a character separates lexemes. -/
def isWhiteSpace (c : Char) : Bool :=
  CodeRange.covers whiteSpaceRanges c.toNat

end ThreeAddress.Text
