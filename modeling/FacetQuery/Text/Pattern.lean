import FacetQuery.Number.Decimal
import FacetQuery.Text.Alphanumeric
import FacetQuery.Text.Blank

/-!
# `FacetQuery.Text.Pattern` — which texts are patterns

A pattern is a regular expression: characters, classes and places in a row, in groups, with `|` between
the branches of a group and `*`, `+` or `?` behind what may be repeated. This module decides whether a
text is one. Patterns stand inside braces here, so a count in braces can never be closed, and an opening
brace stands for itself in classes and behind a backslash alone.

Flags change how the rest of a group is read. Nothing that a pattern matches may cut a character in two,
so what matches by bytes must keep to ASCII. Where a word ends is known for ASCII alone.

## Contents
- `Mode`, how a part of a pattern is read, and `Mode.skip`.
- `Piece` and `escape`, what stands behind a backslash.
- `classRest`, a class behind its opening bracket.
- `Opening.ofText?`, what an opening parenthesis starts.
- `isPattern`.
-/

namespace FacetQuery.Text

/-! ## Modes -/

/-- How a part of a pattern is read: whether blanks and comments are passed over, and whether it matches
    by bytes and not by characters. -/
structure Mode where
  spaced : Bool
  bytes : Bool
  deriving DecidableEq, Inhabited

/-- The text after blanks and comments; `inComment` tells whether it starts inside a comment. -/
def afterComments : Bool → List Char → List Char
  | _, [] => []
  | true, c :: r => afterComments (c ≠ '\n') r
  | false, c :: r =>
      if isBlank c then afterComments false r
      else if c = '#' then afterComments true r
      else c :: r

/-- The text after what the mode passes over. -/
def Mode.skip (m : Mode) (cs : List Char) : List Char :=
  if m.spaced then afterComments false cs else cs

/-- Whether a mode admits a code point in a class. -/
def Mode.admits (m : Mode) (code : Nat) : Bool := !m.bytes || code < 0x80

/-! ## Escapes -/

/-- What one sign or escape stands for. -/
inductive Piece where
  | character (code : Nat)
  /-- Any of several characters. -/
  | set
  /-- No character, but a place between two. -/
  | place
  deriving DecidableEq, Inhabited

/-- A number of hexadecimal digits at the front of a text, and what follows them. -/
def hexDigits (m : Mode) : Nat → List Char → Option (List Char × List Char)
  | 0, cs => some ([], cs)
  | n + 1, cs =>
      match m.skip cs with
      | c :: r => if (hexValue? c).isSome then (hexDigits m n r).map fun (ds, t) => (c :: ds, t) else none
      | [] => none

/-- The character that hexadecimal digits number; two digits number a byte. -/
def numbered (m : Mode) (count : Nat) (cs : List Char) : Option (Piece × List Char) := do
  let (ds, r) ← hexDigits m count cs
  let code ← natOfBase? 16 ds
  if code.isValidChar ∧ (count = 2 → m.admits code) then some (.character code, r) else none

/-- The characters of a general category, which has a letter for its name. -/
def category (m : Mode) (cs : List Char) : Option (Piece × List Char) :=
  match m.skip cs with
  | c :: r => if !m.bytes && "clmnpsz".toList.contains c.toLower then some (.set, r) else none
  | [] => none

/-- The code point of a character that has an escape of its own, or that stands for itself behind a
    backslash. -/
def escapedCode? : Char → Option Nat
  | 'a' => some 0x7
  | 't' => some 0x9
  | 'n' => some 0xa
  | 'v' => some 0xb
  | 'f' => some 0xc
  | 'r' => some 0xd
  | c => if c.toNat < 0x80 && !c.isAlphanum then some c.toNat else none

/-- Reads what stands behind a backslash. -/
def escape (m : Mode) : List Char → Option (Piece × List Char)
  | [] => none
  | 'x' :: r => numbered m 2 r
  | 'u' :: r => numbered m 4 r
  | 'U' :: r => numbered m 8 r
  | c :: r =>
      if c = 'p' ∨ c = 'P' then category m r
      else if c = 'd' ∨ c = 's' ∨ c = 'w' then some (.set, r)
      else if c = 'D' ∨ c = 'S' ∨ c = 'W' then if m.bytes then none else some (.set, r)
      else if c = 'A' ∨ c = 'z' then some (.place, r)
      else if c = 'b' ∨ c = 'B' ∨ c = '<' ∨ c = '>' then if m.bytes then some (.place, r) else none
      else (escapedCode? c).map fun code => (.character code, r)

/-! ## Nesting -/

/-- How deep a row of parts is nested: a single part is as deep as it is, and two or more make one more
    level. -/
def nesting : List Nat → Nat
  | [] => 0
  | [depth] => depth
  | depths => depths.foldl max 0 + 1

/-- How deep a pattern may be nested. -/
def nestingLimit : Nat := 250

/-! ## Classes -/

/-- What is read of a class: how deep the part before its last operator is nested, if it has one, and how
    deep each item behind that is. -/
structure OpenClass where
  left : Option Nat
  items : List Nat
  deriving Inhabited

namespace OpenClass

/-- A class of which nothing is read. -/
def empty : OpenClass := ⟨none, []⟩

/-- With one more item. -/
def add (o : OpenClass) (depth : Nat) : OpenClass := { o with items := depth :: o.items }

/-- How deep the class is nested so far. -/
def depth (o : OpenClass) : Nat :=
  match o.left with
  | none => nesting o.items
  | some left => max left (nesting o.items) + 1

end OpenClass

/-- The names of the classes of ASCII. -/
def asciiClasses : List String :=
  ["alnum", "alpha", "ascii", "blank", "cntrl", "digit", "graph", "lower", "print", "punct", "space",
    "upper", "word", "xdigit"]

/-- Whether a class of ASCII that is named behind a bracket is its negation, and what follows it. -/
def asciiClass? : List Char → Option (Bool × List Char)
  | ':' :: r =>
      let negated := r.head? = some '^'
      let body := if negated then r.tail else r
      let name := body.takeWhile (· ≠ ':')
      match body.drop name.length with
      | ':' :: ']' :: rest =>
          if asciiClasses.contains (String.ofList name) then some (negated, rest) else none
      | _ => none
  | _ => none

/-- Passes the hyphens that stand for themselves at the front of a class, and counts them. -/
def passHyphens (m : Mode) : Nat → List Char → Nat × List Char
  | fuel + 1, '-' :: r =>
      let (n, rest) := passHyphens m fuel (m.skip r)
      (n + 1, rest)
  | _, cs => (0, cs)

/-- Reads the opening of a class behind its bracket: a caret, and the hyphens or the closing bracket that
    stand for themselves there. -/
def openClass (m : Mode) (cs : List Char) : Option (OpenClass × List Char) :=
  let negated := (m.skip cs).head? = some '^'
  let body := if negated then m.skip (m.skip cs).tail else m.skip cs
  if negated && m.bytes then none
  else
    match passHyphens m body.length body with
    | (0, ']' :: r) => some (OpenClass.empty.add 0, r)
    | (n, r) => some (⟨none, List.replicate n 0⟩, r)

/-- One sign or escape of a class. -/
def classPiece (m : Mode) : List Char → Option (Piece × List Char)
  | [] => none
  | c :: r =>
      match if c = '\\' then escape m r else some (.character c.toNat, r) with
      | some (.character code, rest) => if m.admits code then some (.character code, rest) else none
      | some (.set, rest) => some (.set, rest)
      | some (.place, _) => none
      | none => none

/-- One item of a class, which may be a range: what follows it. -/
def classItem (m : Mode) (cs : List Char) : Option (List Char) := do
  let (first, r) ← classPiece m cs
  match m.skip r with
  | '-' :: behind =>
      let next := (m.skip behind).head?
      if next = some ']' ∨ next = some '-' then return '-' :: behind
      match first, ← classPiece m (m.skip behind) with
      | .character low, (.character high, rest) => if low ≤ high then return rest else none
      | _, _ => none
  | rest => return rest

/-- Reads a class up to its closing bracket: how deep it is nested, and what follows. `outer` holds the
    classes around it, the innermost first. Every round takes a character, which `fuel` counts. -/
def classRest (m : Mode) :
    Nat → OpenClass → List OpenClass → List Char → Option (Nat × List Char)
  | 0, _, _, _ => none
  | fuel + 1, o, outer, cs =>
      match m.skip cs with
      | [] => none
      | ']' :: r =>
          match outer with
          | [] => some (o.depth + 1, r)
          | around :: outer => classRest m fuel (around.add (o.depth + 1)) outer r
      | '&' :: '&' :: r => classRest m fuel ⟨some o.depth, []⟩ outer r
      | '-' :: '-' :: r => classRest m fuel ⟨some o.depth, []⟩ outer r
      | '~' :: '~' :: r => classRest m fuel ⟨some o.depth, []⟩ outer r
      | '[' :: r =>
          match asciiClass? r with
          | some (negated, rest) =>
              if negated && m.bytes then none else classRest m fuel (o.add 0) outer rest
          | none => (openClass m r).bind fun (inner, rest) => classRest m fuel inner (o :: outer) rest
      | r => (classItem m r).bind fun rest => classRest m fuel (o.add 0) outer rest

/-- Reads a class behind its opening bracket. -/
def class? (m : Mode) (cs : List Char) : Option (Nat × List Char) :=
  (openClass m cs).bind fun (o, r) => classRest m (cs.length + 1) o [] r

/-! ## Groups -/

/-- What an opening parenthesis starts. -/
inductive Opening where
  /-- A group, perhaps with a name. -/
  | group (m : Mode) (name : Option (List Char))
  /-- Flags for the rest of the group around it. -/
  | flags (m : Mode)
  deriving DecidableEq, Inhabited

/-- The mode after flags, of which those behind a hyphen are taken back. -/
def Mode.withFlags (m : Mode) (flags : List Char) : Mode :=
  let on := flags.takeWhile (· ≠ '-')
  ⟨if flags.contains 'x' then on.contains 'x' else m.spaced,
    if flags.contains 'u' then !on.contains 'u' else m.bytes⟩

/-- Whether a text is the name of a group. -/
def isGroupName : List Char → Bool
  | [] => false
  | c :: r =>
      (c == '_' || isAlphabetic c) &&
        r.all fun d => isAlphanumeric d || d == '_' || d == '.' || d == '[' || d == ']'

/-- Whether a text is a row of flags: none twice, and with something behind the hyphen. -/
def isFlags (cs : List Char) : Bool :=
  cs.all "imsURux-".toList.contains && decide cs.Nodup && cs.getLast? != some '-'

/-- A group with the name at the front of a text, and what follows the name. -/
def namedGroup (m : Mode) (cs : List Char) : Option (Opening × List Char) :=
  let name := cs.takeWhile (· ≠ '>')
  match cs.drop name.length with
  | _ :: r => if isGroupName name then some (.group m (some name), r) else none
  | [] => none

/-- Reads what an opening parenthesis starts. -/
def Opening.ofText? (m : Mode) (cs : List Char) : Option (Opening × List Char) :=
  match m.skip cs with
  | '?' :: 'P' :: '<' :: r => namedGroup m r
  | '?' :: '<' :: r => namedGroup m r
  | '?' :: r =>
      let flags := r.takeWhile fun c => c ≠ ':' ∧ c ≠ ')'
      if !isFlags flags then none
      else
        match r.drop flags.length with
        | ':' :: rest => some (.group (m.withFlags flags) none, rest)
        | _ :: rest => if flags = [] then none else some (.flags (m.withFlags flags), rest)
        | [] => none
  | r => some (.group m none, r)

/-! ## Patterns -/

/-- What is read of a group: its mode, how deep each branch before the last `|` is nested, and how deep
    each part behind that is, the last one first; flags have no depth and cannot be repeated. -/
structure OpenGroup where
  mode : Mode
  branches : List Nat
  parts : List (Option Nat)
  deriving Inhabited

namespace OpenGroup

/-- With one more part. -/
def add (g : OpenGroup) (depth : Nat) : OpenGroup := { g with parts := some depth :: g.parts }

/-- How deep the branches are nested, the last one first. -/
def depths (g : OpenGroup) : List Nat := nesting (g.parts.map (·.getD 0)) :: g.branches

end OpenGroup

/-- Whether a text goes on a pattern to its end. `outer` holds the groups around the one that is open, the
    innermost first, and `names` the names of groups so far. Every round takes a character, which `fuel`
    counts. -/
def goesOn : Nat → OpenGroup → List OpenGroup → List (List Char) → List Char → Bool
  | 0, _, _, _, _ => false
  | fuel + 1, g, outer, names, cs =>
      match g.mode.skip cs with
      | [] => outer.isEmpty && nesting g.depths ≤ nestingLimit
      | '(' :: r =>
          match Opening.ofText? g.mode r with
          | some (.flags m, rest) =>
              goesOn fuel { g with mode := m, parts := none :: g.parts } outer names rest
          | some (.group m none, rest) => goesOn fuel ⟨m, [], []⟩ (g :: outer) names rest
          | some (.group m (some name), rest) =>
              !names.contains name && goesOn fuel ⟨m, [], []⟩ (g :: outer) (name :: names) rest
          | none => false
      | ')' :: r =>
          match outer with
          | around :: outer => goesOn fuel (around.add (nesting g.depths + 1)) outer names r
          | [] => false
      | '|' :: r => goesOn fuel { g with branches := g.depths, parts := [] } outer names r
      | '[' :: r =>
          match class? g.mode r with
          | some (depth, rest) => goesOn fuel (g.add depth) outer names rest
          | none => false
      | '\x7b' :: _ => false
      | '\\' :: r =>
          match escape g.mode r with
          | some (_, rest) => goesOn fuel (g.add 0) outer names rest
          | none => false
      | '.' :: r => !g.mode.bytes && goesOn fuel (g.add 0) outer names r
      | c :: r =>
          if c = '*' ∨ c = '+' ∨ c = '?' then
            match g.parts with
            | some depth :: parts =>
                goesOn fuel { g with parts := some (depth + 1) :: parts } outer names
                  (if r.head? = some '?' then r.tail else r)
            | _ => false
          else goesOn fuel (g.add 0) outer names r

/-- Whether a text is a pattern. -/
def isPattern (cs : List Char) : Bool :=
  goesOn (cs.length + 1) ⟨⟨false, false⟩, [], []⟩ [] [] cs

example : isPattern "a(b|[^c-e])*?\\.\\d+$".toList && isPattern "(?x) a # b".toList := by
  decide +kernel

example : !isPattern "(".toList && !isPattern "*".toList && !isPattern "a)".toList
    && !isPattern "[b-a]".toList && !isPattern "(?i)*".toList := by decide +kernel

/-- The ends of words are known to patterns by bytes alone, and those know no dot. -/
example : !isPattern "\\ba".toList && isPattern "(?-u)\\ba".toList && !isPattern "(?-u).".toList := by
  decide +kernel

end FacetQuery.Text
