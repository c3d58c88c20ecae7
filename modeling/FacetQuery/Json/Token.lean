import FacetQuery.Json.Value

/-!
# `FacetQuery.Json.Token` — the tokens of a JSON text

`Token.scan` cuts a text into brackets, punctuation, names, numbers and strings, and drops the blanks
between them. Strings are decoded here: an escaped surrogate pair makes one character, and half a pair
makes a literal that stands for no text.
-/

namespace FacetQuery.Json

/-- One token. -/
inductive Token where
  | openArray | closeArray | openObject | closeObject | comma | colon
  | null
  | bool (b : Bool)
  | integer (negative : Bool) (magnitude : Nat)
  | decimal (d : Decimal)
  | text (s : Literal)
  deriving DecidableEq, Inhabited

/-- The blanks that may stand between tokens. -/
def isSpace (c : Char) : Bool := c == ' ' || c == '\n' || c == '\t' || c == '\r'

/-! ## Strings -/

/-- The code unit that four hexadecimal digits write. -/
def codeUnit? (a b c d : Char) : Option Nat := do
  return (((← hexValue? a) * 16 + (← hexValue? b)) * 16 + (← hexValue? c)) * 16 + (← hexValue? d)

/-- What one place of a string literal gives: a character, or half of a surrogate pair. -/
inductive Piece where
  | char (c : Char)
  | half (unit : Nat)
  deriving DecidableEq, Inhabited

/-- The piece for an escaped code unit. -/
def Piece.ofUnit (u : Nat) : Piece :=
  if 0xD800 ≤ u ∧ u ≤ 0xDFFF then .half u else .char (Char.ofNat u)

/-- The character that a one-letter escape stands for. -/
def escaped? : Char → Option Char
  | '"' => some '"'
  | '\\' => some '\\'
  | '/' => some '/'
  | 'b' => some '\x08'
  | 'f' => some '\x0c'
  | 'n' => some '\n'
  | 'r' => some '\r'
  | 't' => some '\t'
  | _ => none

/-- Reads the inside of a string literal up to its closing quote; `done` holds the pieces before, the
    last one first. -/
def scanPieces (done : List Piece) : List Char → Option (List Piece × List Char)
  | [] => none
  | '"' :: r => some (done.reverse, r)
  | '\\' :: 'u' :: a :: b :: c :: d :: r =>
      match codeUnit? a b c d with
      | some u => scanPieces (.ofUnit u :: done) r
      | none => none
  | '\\' :: e :: r =>
      match escaped? e with
      | some c => scanPieces (.char c :: done) r
      | none => none
  | c :: r => if c.toNat < 0x20 ∨ c = '\\' then none else scanPieces (.char c :: done) r

/-- The text that pieces make up; a high half must be followed by a low half, and no low half may stand
    alone. `done` holds the characters before, the last one first. -/
def joinPieces (done : List Char) : List Piece → Literal
  | [] => some (String.ofList done.reverse)
  | .char c :: r => joinPieces (c :: done) r
  | .half hi :: .half lo :: r =>
      if hi < 0xDC00 ∧ 0xDC00 ≤ lo then
        joinPieces (Char.ofNat (0x10000 + (hi - 0xD800) * 0x400 + (lo - 0xDC00)) :: done) r
      else none
  | .half _ :: _ => none

/-! ## Numbers -/

/-- The exponent part of a number after its `e`: its value and what follows. -/
def scanExponent (cs : List Char) : Option (Int × List Char) :=
  let (negative, r) :=
    match cs with
    | '+' :: r => (false, r)
    | '-' :: r => (true, r)
    | r => (false, r)
  match r.takeWhile Char.isDigit with
  | [] => none
  | ds =>
      let n : Int := natOfDigits ds
      some (if negative then -n else n, r.dropWhile Char.isDigit)

/-- The number that follows a sign: digits without a leading zero, then perhaps a fraction, then
    perhaps an exponent. -/
def scanNumber (negative : Bool) (cs : List Char) : Option (Token × List Char) :=
  match cs.takeWhile Char.isDigit with
  | [] => none
  | '0' :: _ :: _ => none
  | ds =>
      let r := cs.dropWhile Char.isDigit
      let (fraction, afterFraction) :=
        match r with
        | '.' :: r' => (some (r'.takeWhile Char.isDigit), r'.dropWhile Char.isDigit)
        | _ => (none, r)
      if fraction = some [] then none
      else
        let fs := fraction.getD []
        match afterFraction with
        | e :: r' =>
            if e = 'e' ∨ e = 'E' then
              (scanExponent r').map fun (x, r'') =>
                (.decimal (.ofParts negative ds fs x), r'')
            else if fraction.isSome then
              some (.decimal (.ofParts negative ds fs 0), afterFraction)
            else some (.integer negative (natOfDigits ds), afterFraction)
        | [] =>
            if fraction.isSome then some (.decimal (.ofParts negative ds fs 0), [])
            else some (.integer negative (natOfDigits ds), [])

/-! ## The whole text -/

/-- Reads one token off the front of a text that does not start with a blank. -/
def scanToken : List Char → Option (Token × List Char)
  | '[' :: r => some (.openArray, r)
  | ']' :: r => some (.closeArray, r)
  | '{' :: r => some (.openObject, r)
  | '}' :: r => some (.closeObject, r)
  | ',' :: r => some (.comma, r)
  | ':' :: r => some (.colon, r)
  | 'n' :: 'u' :: 'l' :: 'l' :: r => some (.null, r)
  | 't' :: 'r' :: 'u' :: 'e' :: r => some (.bool true, r)
  | 'f' :: 'a' :: 'l' :: 's' :: 'e' :: r => some (.bool false, r)
  | '"' :: r => (scanPieces [] r).map fun (ps, r') => (.text (joinPieces [] ps), r')
  | '-' :: r => scanNumber true r
  | cs => scanNumber false cs

/-- Reads all tokens of a text; `done` holds those before, the last one first. Every token takes at
    least one character, which `fuel` counts. -/
def scanTokens (done : List Token) : Nat → List Char → Option (List Token)
  | 0, _ => none
  | fuel + 1, cs =>
      match cs.dropWhile isSpace with
      | [] => some done.reverse
      | r =>
          match scanToken r with
          | some (t, r') => scanTokens (t :: done) fuel r'
          | none => none

/-- The tokens of a text. -/
def Token.scan (cs : List Char) : Option (List Token) := scanTokens [] (cs.length + 1) cs

end FacetQuery.Json
