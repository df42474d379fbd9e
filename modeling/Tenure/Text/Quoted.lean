import Tenure.Text.Visible

/-!
# `Tenure.Text.Quoted`: a text in quotes

`quoted` writes a text between double quotes for a message. The quote, the
backslash and the tab, line feed, carriage return and null characters have
short escapes; any other character that is not visible is written by its number
in lower-case hexadecimal, as `\\u` and the number in braces.
-/

set_option autoImplicit false

namespace Tenure.Text

/-- A number in lower-case hexadecimal, without leading zeros. -/
def hexText (n : Nat) : String := String.ofList (Nat.toDigits 16 n)

/-- One character of a quoted text. -/
def quotedChar (c : Char) : String :=
  if c == '\x00' then "\\0"
  else if c == '\t' then "\\t"
  else if c == '\n' then "\\n"
  else if c == '\r' then "\\r"
  else if c == '"' then "\\\""
  else if c == '\\' then "\\\\"
  else if isVisible c then String.singleton c
  else "\\u\x7b" ++ hexText c.toNat ++ "\x7d"

/-- A text between double quotes. -/
def quoted (s : String) : String :=
  "\"" ++ String.join (s.toList.map quotedChar) ++ "\""

/-- A list of texts, each quoted, between square brackets. -/
def quotedList (names : List String) : String :=
  "[" ++ String.intercalate ", " (names.map quoted) ++ "]"

end Tenure.Text
