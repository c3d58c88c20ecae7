import FacetQuery.Json.Value

/-!
# `FacetQuery.Json.Printer` — JSON on indented lines

Each item and each member stands on a line of its own, indented by two spaces for every container
around it; an empty container is written as its two brackets. In a string only the quote, the backslash
and the characters below the space are escaped.
-/

namespace FacetQuery.Json

/-- A hexadecimal digit in lower case. -/
def hexDigit (n : Nat) : Char :=
  if n < 10 then Char.ofNat ('0'.toNat + n) else Char.ofNat ('a'.toNat + (n - 10))

/-- One character of a string as it is written. -/
def escapeChar (c : Char) : List Char :=
  if c = '"' then ['\\', '"']
  else if c = '\\' then ['\\', '\\']
  else if c = '\x08' then ['\\', 'b']
  else if c = '\x0c' then ['\\', 'f']
  else if c = '\n' then ['\\', 'n']
  else if c = '\r' then ['\\', 'r']
  else if c = '\t' then ['\\', 't']
  else if c.toNat < 0x20 then
    ['\\', 'u', '0', '0', hexDigit (c.toNat / 16), hexDigit (c.toNat % 16)]
  else [c]

/-- A text between quotes. -/
def quoted (s : String) : List Char := '"' :: s.toList.flatMap escapeChar ++ ['"']

/-- A new line, indented for what stands inside `depth` containers. -/
def newLine (depth : Nat) : List Char := '\n' :: List.replicate (2 * depth) ' '

/-- The digits of a natural number. -/
def natText (n : Nat) : List Char := (toString n).toList

/-- The sign of a number. -/
def signText (negative : Bool) : List Char := if negative then ['-'] else []

/-- The literal of a string; one that stands for no text is written as a lone half of a pair. -/
def literalText : Literal → List Char
  | some s => quoted s
  | none => ['"', '\\', 'u', 'd', '8', '0', '0', '"']

mutual

/-- A value that stands inside `depth` containers. -/
def write (depth : Nat) : Json → List Char
  | .null => ['n', 'u', 'l', 'l']
  | .bool true => ['t', 'r', 'u', 'e']
  | .bool false => ['f', 'a', 'l', 's', 'e']
  | .integer negative m => signText negative ++ natText m
  | .decimal d =>
      signText d.negative ++ natText d.mantissa ++ 'e' :: signText (d.exponent < 0) ++
        natText d.exponent.natAbs
  | .text s => literalText s
  | .array [] => ['[', ']']
  | .array (v :: vs) =>
      '[' :: newLine (depth + 1) ++ write (depth + 1) v ++ writeItems (depth + 1) vs ++
        newLine depth ++ [']']
  | .object [] => ['\x7b', '\x7d']
  | .object ((k, v) :: ms) =>
      '\x7b' :: newLine (depth + 1) ++ literalText k ++ ':' :: ' ' :: write (depth + 1) v ++
        writeMembers (depth + 1) ms ++ newLine depth ++ ['\x7d']

/-- The items of an array after its first. -/
def writeItems (depth : Nat) : List Json → List Char
  | [] => []
  | v :: vs => ',' :: newLine depth ++ write depth v ++ writeItems depth vs

/-- The members of an object after its first. -/
def writeMembers (depth : Nat) : List (Literal × Json) → List Char
  | [] => []
  | (k, v) :: ms =>
      ',' :: newLine depth ++ literalText k ++ ':' :: ' ' :: write depth v ++ writeMembers depth ms

end

/-- A value on indented lines, without a break at the end. -/
def pretty (j : Json) : String := String.ofList (write 0 j)

end FacetQuery.Json
