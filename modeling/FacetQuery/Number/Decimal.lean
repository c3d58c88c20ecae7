/-!
# `FacetQuery.Number.Decimal` — digits and decimal numbers

Runs of digits and the numbers they write, and decimal numbers as they stand in a text: digits times a
power of ten, under a sign. Reading integers is bounded by the range asked for.
-/

namespace FacetQuery

/-! ## Digits -/

/-- The value of a decimal digit. -/
def digitValue (c : Char) : Nat := c.toNat - '0'.toNat

/-- The number that a run of decimal digits writes. -/
def natOfDigits (ds : List Char) : Nat := ds.foldl (fun n c => n * 10 + digitValue c) 0

/-- The value of a hexadecimal digit in either case. -/
def hexValue? (c : Char) : Option Nat :=
  if '0' ≤ c ∧ c ≤ '9' then some (c.toNat - '0'.toNat)
  else if 'a' ≤ c ∧ c ≤ 'f' then some (c.toNat - 'a'.toNat + 10)
  else if 'A' ≤ c ∧ c ≤ 'F' then some (c.toNat - 'A'.toNat + 10)
  else none

/-- The number that digits in a base up to sixteen write; none if one of them is no digit of it. -/
def natOfBase? (base : Nat) (ds : List Char) : Option Nat :=
  ds.foldlM (fun n c => do
    let v ← hexValue? c
    if v < base then some (n * base + v) else none) 0

/-- How many decimal digits a number has. -/
def digitCount (n : Nat) : Nat := (Nat.toDigits 10 n).length

/-! ## Integers -/

/-- The number that a text of digits writes; there must be at least one. -/
def digits? (cs : List Char) : Option Nat :=
  if cs ≠ [] ∧ cs.all Char.isDigit then some (natOfDigits cs) else none

/-- The integer that a text writes with digits and perhaps a sign. -/
def integer? : List Char → Option Int
  | '-' :: cs => (digits? cs).map fun n => -(n : Int)
  | '+' :: cs => (digits? cs).map Int.ofNat
  | cs => (digits? cs).map Int.ofNat

/-- The natural number that a text writes with digits and perhaps a plus sign. -/
def natural? : List Char → Option Nat
  | '+' :: cs => digits? cs
  | cs => digits? cs

/-- Whether a signed word of 64 bits holds the integer. -/
def fitsInt64 (i : Int) : Bool := -9223372036854775808 ≤ i && i < 9223372036854775808

/-- Whether an unsigned word of 64 bits holds the integer. -/
def fitsUInt64 (i : Int) : Bool := 0 ≤ i && i < 18446744073709551616

/-- The integer that a text writes, if a signed word of 64 bits holds it. -/
def int64? (cs : List Char) : Option Int := (integer? cs).filter fitsInt64

/-- The natural number that a text writes, if an unsigned word of 64 bits holds it. -/
def uint64? (cs : List Char) : Option Nat := (natural? cs).filter (fitsUInt64 ·)

/-! ## Decimal numbers -/

/-- A decimal number: `mantissa` times ten to the `exponent`, under a sign. -/
structure Decimal where
  negative : Bool
  mantissa : Nat
  exponent : Int
  deriving DecidableEq, Inhabited

namespace Decimal

/-- The number written by the digits before and after a point and an exponent. -/
def ofParts (negative : Bool) (whole fraction : List Char) (exponent : Int) : Decimal :=
  ⟨negative, natOfDigits (whole ++ fraction), exponent - fraction.length⟩

/-- The exponent that a text writes behind `e` or `E`; zero if there is no text. -/
def exponent? : List Char → Option Int
  | [] => some 0
  | e :: cs => if e = 'e' ∨ e = 'E' then integer? cs else none

/-- The number that a text writes: digits before or after a point, or both, then perhaps an exponent. -/
def unsigned? (negative : Bool) (cs : List Char) : Option Decimal :=
  let whole := cs.takeWhile Char.isDigit
  let (fraction, rest) :=
    match cs.dropWhile Char.isDigit with
    | '.' :: r => (r.takeWhile Char.isDigit, r.dropWhile Char.isDigit)
    | r => ([], r)
  if whole ++ fraction = [] then none
  else (exponent? rest).map (ofParts negative whole fraction)

end Decimal

end FacetQuery
