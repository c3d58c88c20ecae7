import FacetQuery.Text.Visible

/-!
# `FacetQuery.Text.Quoted` — a text between quotes, for a reader of messages

Messages show paths and values between double quotes. What could not be told apart by eye is escaped:
the quote and the backslash, line breaks and tabs, and every character that does not show by itself,
which is written by its number.
-/

namespace FacetQuery.Text

/-- The lower-case hexadecimal digits of a number. -/
def hexText (n : Nat) : String := String.ofList (Nat.toDigits 16 n)

/-- One character of a quoted text. -/
def quotedChar (c : Char) : String :=
  if c = '"' then "\\\""
  else if c = '\\' then "\\\\"
  else if c = '\n' then "\\n"
  else if c = '\r' then "\\r"
  else if c = '\t' then "\\t"
  else if c = '\x00' then "\\0"
  else if isVisible c then c.toString
  else "\\u\x7b" ++ hexText c.toNat ++ "\x7d"

/-- A text between quotes. -/
def quoted (s : String) : String := "\"" ++ String.join (s.toList.map quotedChar) ++ "\""

example : quoted "a\"b\\\n" = "\"a\\\"b\\\\\\n\"" := by decide +kernel

end FacetQuery.Text
