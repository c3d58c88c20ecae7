import FacetQuery.Toml.Scalar
import FacetQuery.Toml.Table
import FacetQuery.Toml.Text

/-!
# `FacetQuery.Toml.Document` — reading a TOML document

A document is a sequence of lines: a header that opens a table, a header that opens one more table of an
array, or a key with its value. Arrays and inline tables may run over several lines, hold comments, and
end in a comma. `parse?` reads the whole document into the members of its root table.
-/

namespace FacetQuery.Toml

/-- How deep values may be nested. -/
def depthLimit : Nat := 80

mutual

/-- Reads a value off the front of a text; `depth` containers may still be opened. Every call takes at
    least one character before the next at the same depth, which `fuel` counts. -/
def readValue : Nat → Nat → List Char → Option (SettingValue × List Char)
  | 0, _, _ => none
  | fuel + 1, depth, cs =>
      match cs with
      | '"' :: r => (anyString '"' r).map fun (s, rest) => (.text s, rest)
      | '\'' :: r => (anyString '\'' r).map fun (s, rest) => (.text s, rest)
      | '[' :: r =>
          if depth = 0 then none
          else (readItems fuel (depth - 1) [] r).map fun (vs, rest) => (.list vs, rest)
      | '\x7b' :: r =>
          if depth = 0 then none
          else (readMembers fuel (depth - 1) [] r).map fun (ms, rest) => (.table (closeMembers ms), rest)
      | _ => do
          let (run, rest) := cutScalar cs
          return (← scalar? run, rest)

/-- Reads the items of an array up to its bracket; `done` holds those before, the last one first. -/
def readItems : Nat → Nat → List SettingValue → List Char → Option (List SettingValue × List Char)
  | 0, _, _, _ => none
  | fuel + 1, depth, done, cs => do
      match ← skipTrivia false cs with
      | ']' :: r => return (done.reverse, r)
      | r =>
          let (v, r') ← readValue fuel depth r
          match ← skipTrivia false r' with
          | ',' :: r'' => readItems fuel depth (v :: done) r''
          | ']' :: r'' => return ((v :: done).reverse, r'')
          | _ => none

/-- Reads the members of an inline table up to its brace. -/
def readMembers : Nat → Nat → Members → List Char → Option (Members × List Char)
  | 0, _, _, _ => none
  | fuel + 1, depth, ms, cs => do
      match ← skipTrivia false cs with
      | '\x7d' :: r => return (ms, r)
      | r =>
          let (names, r') ← key? r
          match ← skipTrivia false r' with
          | '=' :: r'' =>
              let (v, rest) ← readValue fuel depth (← skipTrivia false r'')
              let ms' ← ms.assign v names
              match ← skipTrivia false rest with
              | ',' :: rest' => readMembers fuel depth ms' rest'
              | '\x7d' :: rest' => return (ms', rest')
              | _ => none
          | _ => none

end

/-- The rest of a line after its content: blanks and perhaps a comment, then a break or the end. -/
def endOfLine (cs : List Char) : Option (List Char) :=
  match skipBlanks cs with
  | [] => some []
  | '#' :: r => skipTrivia true r
  | r => if startsWithBreak r then some (dropBreak r) else none

/-- The names in a header up to its closing bracket, and what follows that. -/
def headerNames (cs : List Char) : Option (List String × List Char) := do
  match ← key? cs with
  | (names, ']' :: r) => return (names, r)
  | _ => none

/-- Reads the lines of a document; `path` names the table that is open. Every line takes at least one
    character, which `fuel` counts. -/
def readLines : Nat → List String → Members → List Char → Option Members
  | 0, _, _, _ => none
  | fuel + 1, path, ms, cs => do
      match ← skipTrivia false cs with
      | [] => return ms
      | '[' :: '[' :: r =>
          match ← headerNames r with
          | (names, ']' :: r') =>
              let ms' ← ms.alterAt (Members.openItem (names.getLastD "")) names.dropLast
              readLines fuel names ms' (← endOfLine r')
          | _ => none
      | '[' :: r =>
          let (names, r') ← headerNames r
          let ms' ← ms.alterAt (Members.openTable (names.getLastD "")) names.dropLast
          readLines fuel names ms' (← endOfLine r')
      | r =>
          let (names, r') ← key? r
          match r' with
          | '=' :: r'' =>
              let (v, rest) ← readValue (r''.length + 1) depthLimit (skipBlanks r'')
              let ms' ← ms.alterAt (Members.assign v names) path
              readLines fuel path ms' (← endOfLine rest)
          | _ => none

/-- The members of the root table of a document, which may start with a byte order mark; none if it is not
    well formed. -/
def parse? (cs : List Char) : Option (List (String × SettingValue)) :=
  let lines := if cs.head? = some '\ufeff' then cs.tail else cs
  (readLines (lines.length + 1) [] [] lines).map closeMembers

end FacetQuery.Toml
