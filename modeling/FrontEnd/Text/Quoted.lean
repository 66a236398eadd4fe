import FrontEnd.Text.Printable

/-! # Quoted text

How a message quotes a piece of the source: the quote mark in use, the backslash and the common
controls are written with a backslash, any other character that would not be seen by its code
point, and the rest as they are. -/
namespace FrontEnd.Text

/-- A code point in braces, in lower-case hexadecimal without leading zeros. -/
def codePoint (c : Char) : String :=
  "\\u\x7b" ++ String.ofList (Nat.toDigits 16 c.toNat) ++ "\x7d"

/-- One character between two quote marks `mark`. -/
def escape (mark c : Char) : String :=
  if c = '\x00' then "\\0"
  else if c = '\t' then "\\t"
  else if c = '\r' then "\\r"
  else if c = '\n' then "\\n"
  else if c = '\\' then "\\\\"
  else if c = mark then "\\" ++ String.singleton mark
  else if isPrintable c then String.singleton c
  else codePoint c

def quoteChar (c : Char) : String := "'" ++ escape '\x27' c ++ "'"

def quote (text : String) : String :=
  "\"" ++ String.join (text.toList.map (escape '\x22')) ++ "\""

end FrontEnd.Text
