import FacetQuery.Number.Decimal

/-!
# `FacetQuery.Toml.Text` — strings, keys and blanks of TOML

A string is cut out of the text first, up to its closing quotes, and decoded afterwards. Basic strings
know escapes, literal strings stand for themselves; either may run over several lines between triple
quotes, and then a break right after the opening is dropped, up to two quotes may stand in front of the
closing, and every other break is kept as it is written.
-/

namespace FacetQuery.Toml

/-! ## Characters -/

/-- Blanks inside a line. -/
def isBlank (c : Char) : Bool := c == ' ' || c == '\t'

/-- Characters that may stand neither in a comment nor in a string; line breaks are among them. -/
def isControl (c : Char) : Bool := (c.toNat < 0x20 && c != '\t') || c == '\x7f'

/-- Characters of a key without quotes. -/
def isBareKeyChar (c : Char) : Bool := c.isAlphanum || c == '_' || c == '-'

/-- The text after the blanks at its front. -/
def skipBlanks (cs : List Char) : List Char := cs.dropWhile isBlank

/-- The text after blanks, line breaks and comments; `inComment` tells whether it starts inside one. -/
def skipTrivia : Bool → List Char → Option (List Char)
  | _, [] => some []
  | _, '\n' :: r => skipTrivia false r
  | _, '\r' :: '\n' :: r => skipTrivia false r
  | true, c :: r => if isControl c then none else skipTrivia true r
  | false, '#' :: r => skipTrivia true r
  | false, c :: r => if isBlank c then skipTrivia false r else some (c :: r)

/-- The text after a break at its front, if one stands there. -/
def dropBreak : List Char → List Char
  | '\n' :: r => r
  | '\r' :: '\n' :: r => r
  | cs => cs

/-- Whether a text starts with a line break. -/
def startsWithBreak : List Char → Bool
  | '\n' :: _ => true
  | '\r' :: '\n' :: _ => true
  | _ => false

/-! ## Cutting strings out -/

/-- The inside of a string up to its closing quote, and what follows; a backslash takes the next
    character with it if `escapes` is set. `done` holds the characters before, the last one first. -/
def cutString (quote : Char) (escapes : Bool) (done : List Char) :
    List Char → Option (List Char × List Char)
  | [] => none
  | c :: r =>
      if c = quote then some (done.reverse, r)
      else if c = '\\' ∧ escapes then
        match r with
        | d :: r' => cutString quote escapes (d :: c :: done) r'
        | [] => none
      else cutString quote escapes (c :: done) r

/-- How many quotes stand at the front of a text, five at most. -/
def quoteRun (quote : Char) (cs : List Char) : Nat := ((cs.take 5).takeWhile (· = quote)).length

/-- The inside of a string over several lines up to its closing quotes, and what follows. -/
def cutLines (quote : Char) (escapes : Bool) (done : List Char) :
    List Char → Option (List Char × List Char)
  | [] => none
  | c :: r =>
      if 3 ≤ quoteRun quote (c :: r) then
        let n := quoteRun quote (c :: r)
        some (done.reverse ++ List.replicate (n - 3) quote, (c :: r).drop n)
      else if c = '\\' ∧ escapes then
        match r with
        | d :: r' => cutLines quote escapes (d :: c :: done) r'
        | [] => none
      else cutLines quote escapes (c :: done) r

/-! ## Decoding strings -/

/-- The character that a one-letter escape stands for. -/
def escaped? : Char → Option Char
  | 'b' => some '\x08'
  | 't' => some '\t'
  | 'n' => some '\n'
  | 'f' => some '\x0c'
  | 'r' => some '\r'
  | 'e' => some '\x1b'
  | '"' => some '"'
  | '\\' => some '\\'
  | _ => none

/-- The character with the number that hexadecimal digits write. -/
def charOfHex? (ds : List Char) : Option Char := do
  let n ← natOfBase? 16 ds
  if n.isValidChar then some (Char.ofNat n) else none

/-- Decodes the inside of a basic string. `lines` tells whether it may run over several lines; while
    `trimming`, blanks and breaks are dropped. `done` holds the characters before, the last one first. -/
def decodeBasic (lines trimming : Bool) (done : List Char) : List Char → Option (List Char)
  | [] => some done.reverse
  | '\\' :: 'x' :: a :: b :: r =>
      (charOfHex? [a, b]).bind fun c => decodeBasic lines false (c :: done) r
  | '\\' :: 'u' :: a :: b :: c :: d :: r =>
      (charOfHex? [a, b, c, d]).bind fun x => decodeBasic lines false (x :: done) r
  | '\\' :: 'U' :: a :: b :: c :: d :: e :: f :: g :: h :: r =>
      (charOfHex? [a, b, c, d, e, f, g, h]).bind fun x => decodeBasic lines false (x :: done) r
  | '\\' :: c :: r =>
      match escaped? c with
      | some x => decodeBasic lines false (x :: done) r
      | none =>
          if lines ∧ startsWithBreak (skipBlanks (c :: r)) then decodeBasic lines true done (c :: r)
          else none
  | '\n' :: r =>
      if !lines then none else decodeBasic lines trimming (if trimming then done else '\n' :: done) r
  | '\r' :: '\n' :: r =>
      if !lines then none
      else decodeBasic lines trimming (if trimming then done else '\n' :: '\r' :: done) r
  | c :: r =>
      if trimming ∧ isBlank c then decodeBasic lines true done r
      else if isControl c ∨ c = '\\' then none
      else decodeBasic lines false (c :: done) r

/-- The inside of a literal string, if it holds no control character; breaks are allowed over several
    lines. -/
def decodeLiteral (lines : Bool) (done : List Char) : List Char → Option (List Char)
  | [] => some done.reverse
  | '\n' :: r => if !lines then none else decodeLiteral lines ('\n' :: done) r
  | '\r' :: '\n' :: r => if !lines then none else decodeLiteral lines ('\n' :: '\r' :: done) r
  | c :: r => if isControl c then none else decodeLiteral lines (c :: done) r

/-- The string that stands behind an opening quote, on one line. -/
def lineString (quote : Char) (cs : List Char) : Option (String × List Char) := do
  let (inside, r) ← cutString quote (quote == '"') [] cs
  let text ← if quote = '"' then decodeBasic false false [] inside else decodeLiteral false [] inside
  return (String.ofList text, r)

/-- The string that stands behind three opening quotes. -/
def linesString (quote : Char) (cs : List Char) : Option (String × List Char) := do
  let (inside, r) ← cutLines quote (quote == '"') [] (dropBreak cs)
  let text ← if quote = '"' then decodeBasic true false [] inside else decodeLiteral true [] inside
  return (String.ofList text, r)

/-- The string that stands behind one opening quote, of either kind. -/
def anyString (quote : Char) (cs : List Char) : Option (String × List Char) :=
  match cs with
  | a :: b :: r => if a = quote ∧ b = quote then linesString quote r else lineString quote cs
  | _ => lineString quote cs

/-! ## Keys -/

/-- One name of a key, bare or quoted. -/
def keyName : List Char → Option (String × List Char)
  | '"' :: r => lineString '"' r
  | '\'' :: r => lineString '\'' r
  | cs =>
      match cs.takeWhile isBareKeyChar with
      | [] => none
      | name => some (String.ofList name, cs.dropWhile isBareKeyChar)

/-- Names with dots between them, and blanks around the dots. Every name takes at least one character,
    which `fuel` counts. -/
def keyNames : Nat → List Char → Option (List String × List Char)
  | 0, _ => none
  | fuel + 1, cs => do
      let (name, r) ← keyName (skipBlanks cs)
      match skipBlanks r with
      | '.' :: r' =>
          let (names, r'') ← keyNames fuel r'
          return (name :: names, r'')
      | r' => return ([name], r')

/-- How many names a key may have. -/
def keyLimit : Nat := 80

/-- A key at the front of a text, and what follows it and its blanks. -/
def key? (cs : List Char) : Option (List String × List Char) := do
  let (names, r) ← keyNames (cs.length + 1) cs
  if names.length ≤ keyLimit then return (names, r) else none

end FacetQuery.Toml
