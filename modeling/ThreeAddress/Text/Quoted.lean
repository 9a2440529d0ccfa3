import ThreeAddress.Text.GraphemeExtend
import ThreeAddress.Text.Unprintable

/-!
# Quoted text

Messages show characters between single quotes and strings between double quotes, in one line of
visible characters: the enclosing quote, the backslash and the usual controls are escaped with a
backslash, and every other character that would not show on its own is written as its code point
in hexadecimal, between braces.
-/

namespace ThreeAddress.Text

/-- The code point of a character as `\u` and its hexadecimal digits between braces, lower case
and without padding. -/
def codePointEscape (c : Char) : String :=
  "\\u\x7b" ++ String.ofList (Nat.toDigits 16 c.toNat) ++ "\x7d"

/-- A character as it stands between two occurrences of `quote`. -/
def escaped (quote c : Char) : String :=
  if c = '\x00' then "\\0"
  else if c = '\t' then "\\t"
  else if c = '\r' then "\\r"
  else if c = '\n' then "\\n"
  else if c = '\\' then "\\\\"
  else if c = quote then "\\".push quote
  else if extendsGrapheme c || isUnprintable c then codePointEscape c
  else String.singleton c

/-- A character between single quotes. -/
def quotedChar (c : Char) : String :=
  "'" ++ escaped '\x27' c ++ "'"

/-- A string between double quotes. -/
def quoted (s : String) : String :=
  "\"" ++ String.join (s.toList.map (escaped '"')) ++ "\""

end ThreeAddress.Text
