import NativeBridge.Text.Printable
import NativeBridge.Text.Extending

/-!
# Quoted text

A text between double quotes, written so that it can be read back: the two quoting characters
and the common controls have short escapes, and a character that has no visible form or that is
drawn on the one before it is written by its code point in hexadecimal.
-/

namespace NativeBridge

namespace Text

/-- The lower-case hexadecimal digits of `n`, with zeros in front up to `width` digits. -/
def hexadecimal (n : Nat) (width : Nat) : String :=
  let digits := Nat.toDigits 16 n
  String.ofList (List.replicate (width - digits.length) '0' ++ digits)

/-- A character as it is written between double quotes. -/
def escape (c : Char) : String :=
  if c = '\x00' then "\\0"
  else if c = '\t' then "\\t"
  else if c = '\n' then "\\n"
  else if c = '\r' then "\\r"
  else if c = '"' then "\\\""
  else if c = '\\' then "\\\\"
  else if isPrintable c && !isExtendingMark c then c.toString
  else "\\u\x7b" ++ hexadecimal c.toNat 1 ++ "\x7d"

/-- A text between double quotes. -/
def quoted (s : String) : String := "\"" ++ String.join (s.toList.map escape) ++ "\""

end Text

end NativeBridge
