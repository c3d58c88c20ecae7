import FacetQuery.Number.Decimal

/-!
# `FacetQuery.Number.Binary64` — floating-point numbers of 64 bits

A finite number is a mantissa below `2 ^ 53` times a power of two. Everything is exact arithmetic on
natural numbers: a decimal number is rounded to the nearest value with ties to even, and a value is
written with the fewest digits that lie nearer to it than to its neighbours, always without an exponent;
of two such texts that are equally near the one further from zero is taken.
-/

namespace FacetQuery

/-- A floating-point number. -/
inductive Binary64 where
  | nan
  | infinite (negative : Bool)
  /-- The number `mantissa * 2 ^ exponent`, with `mantissa < 2 ^ 53` and `-1074 ≤ exponent ≤ 971`. -/
  | finite (negative : Bool) (mantissa : Nat) (exponent : Int)
  deriving DecidableEq, Inhabited

namespace Binary64

/-! ## Rounding a decimal number -/

/-- The integer nearest to `num / den`, the even one of two that are equally near. -/
def roundHalfEven (num den : Nat) : Nat :=
  let q := num / den
  let twice := 2 * (num % den)
  if twice < den ∨ (twice = den ∧ q % 2 = 0) then q else q + 1

/-- The fraction `num / den` over two to the `e`, as a pair of numerator and denominator. -/
def scaled (num den : Nat) (e : Int) : Nat × Nat :=
  if e < 0 then (num * Nat.pow 2 e.natAbs, den) else (num, den * Nat.pow 2 e.natAbs)

/-- The value nearest to `num / den`. -/
def ofRatio (negative : Bool) (num den : Nat) : Binary64 :=
  if num = 0 then finite negative 0 (-1074)
  else
    let low : Int := max ((num.log2 : Int) - den.log2 - 53) (-1074)
    let (a, b) := scaled num den low
    let e := if Nat.pow 2 53 ≤ a / b then low + 1 else low
    let (c, d) := scaled num den e
    let m := roundHalfEven c d
    let (m, e) := if m = Nat.pow 2 53 then (Nat.pow 2 52, e + 1) else (m, e)
    if 971 < e then infinite negative else finite negative m e

/-- The value nearest to a decimal number; one too great for any finite value becomes infinite. -/
def ofDecimal (d : Decimal) : Binary64 :=
  if d.mantissa = 0 then finite d.negative 0 (-1074)
  else
    let magnitude : Int := digitCount d.mantissa + d.exponent
    if 310 < magnitude then infinite d.negative
    else if magnitude < -330 then finite d.negative 0 (-1074)
    else if d.exponent < 0 then ofRatio d.negative d.mantissa (Nat.pow 10 d.exponent.natAbs)
    else ofRatio d.negative (d.mantissa * Nat.pow 10 d.exponent.natAbs) 1

/-- The value that a text writes: a decimal number, `inf`, `infinity` or `nan` in any case, each perhaps
    with a sign. -/
def ofText? (cs : List Char) : Option Binary64 :=
  let (negative, body) :=
    match cs with
    | '-' :: r => (true, r)
    | '+' :: r => (false, r)
    | r => (false, r)
  let word := String.ofList (body.map Char.toLower)
  if word = "inf" ∨ word = "infinity" then some (infinite negative)
  else if word = "nan" then some nan
  else (Decimal.unsigned? negative body).map ofDecimal

/-! ## Questions -/

/-- Whether the number is zero, under either sign. -/
def isZero : Binary64 → Bool
  | finite _ m _ => m == 0
  | nan | infinite _ => false

/-- Whether the number is infinite. -/
def isInfinite : Binary64 → Bool
  | infinite _ => true
  | nan | finite .. => false

/-- The integer nearest to `num / den`, the greater one of two that are equally near. -/
def roundHalfUp (num den : Nat) : Nat := (2 * num + den) / (2 * den)

/-- The nearest natural number that an unsigned word of 64 bits holds, halves going up. What is no number
    counts as zero. -/
def toUInt64 : Binary64 → Nat
  | nan => 0
  | infinite negative => if negative then 0 else Nat.pow 2 64 - 1
  | finite negative m e =>
      if negative then 0
      else
        let (num, den) := scaled m 1 (-e)
        min (roundHalfUp num den) (Nat.pow 2 64 - 1)

/-! ## The shortest text -/

/-- The greatest `k` with `10 ^ k ≤ num / den`, for a positive fraction. -/
def decimalExponent (num den : Nat) : Int :=
  if den ≤ num then digitCount (num / den) - 1
  else
    let k := digitCount (den / num) - 1
    if den = num * Nat.pow 10 k then -(k : Int) else -(k : Int) - 1

/-- Where a decimal `digits * 10 ^ t` stands to `num / den`. -/
def compareDecimal (digits : Nat) (t : Int) (num den : Nat) : Ordering :=
  if t < 0 then compare (digits * den) (num * Nat.pow 10 t.natAbs)
  else compare (digits * Nat.pow 10 t.natAbs * den) num

/-- Whether a decimal is nearer to `mantissa * 2 ^ e` than to any other value; a decimal half-way to a
    neighbour counts iff the mantissa is even. -/
def readsBack (mantissa : Nat) (e : Int) (digits : Nat) (t : Int) : Bool :=
  let below := if mantissa = Nat.pow 2 52 ∧ -1074 < e then 4 * mantissa - 1 else 4 * mantissa - 2
  let (lowNum, lowDen) := scaled below 1 (2 - e)
  let (highNum, highDen) := scaled (4 * mantissa + 2) 1 (2 - e)
  let low := compareDecimal digits t lowNum lowDen
  let high := compareDecimal digits t highNum highDen
  if mantissa % 2 = 0 then low ≠ .lt && high ≠ .gt else low == .gt && high == .lt

/-- The decimal with `n` digits that is nearest to `mantissa * 2 ^ e`, if it reads back. -/
def shortestWith? (mantissa : Nat) (e : Int) (n : Nat) : Option (Nat × Int) :=
  let (num, den) := scaled mantissa 1 (-e)
  let t := decimalExponent num den - n + 1
  let power := Nat.pow 10 t.natAbs
  let (a, b) := if t < 0 then (num * power, den) else (num, den * power)
  let nearest := roundHalfUp a b
  let other := if nearest = a / b then a / b + 1 else a / b
  if readsBack mantissa e nearest t then some (nearest, t)
  else if readsBack mantissa e other t then some (other, t)
  else none

/-- The digits and exponent of the shortest decimal that reads back; seventeen digits always do. -/
def shortest (mantissa : Nat) (e : Int) : Nat × Int :=
  ((List.range 17).findSome? fun n => shortestWith? mantissa e (n + 1)).getD (mantissa, 0)

/-- The decimal `digits * 10 ^ t` without an exponent. -/
def positional (digits : Nat) (t : Int) : List Char :=
  let ds := Nat.toDigits 10 digits
  if 0 ≤ t then ds ++ List.replicate t.natAbs '0'
  else
    let places := t.natAbs
    let padded := List.replicate (places + 1 - ds.length) '0' ++ ds
    let whole := padded.take (padded.length - places)
    let fraction := (padded.drop (padded.length - places)).reverse.dropWhile (· = '0')
    if fraction = [] then whole else whole ++ '.' :: fraction.reverse

/-- The number as a text. -/
def shown : Binary64 → String
  | nan => "NaN"
  | infinite negative => if negative then "-inf" else "inf"
  | finite negative m e =>
      let sign := if negative then ['-'] else []
      if m = 0 then String.ofList (sign ++ ['0'])
      else
        let (digits, t) := shortest m e
        String.ofList (sign ++ positional digits t)

example : (ofText? "1.50".toList).map shown = some "1.5" := by decide +kernel

example : (ofText? "1e21".toList).map shown = some "1000000000000000000000" := by decide +kernel

example : (ofText? "5e-324".toList) = some (finite false 1 (-1074)) := by decide +kernel

example : (ofText? "1e-7".toList).map shown = some "0.0000001" := by decide +kernel

example : (ofText? "0.30000000000000004".toList).map shown = some "0.30000000000000004" := by
  decide +kernel

example : (ofText? "562949953421312.25".toList).map shown = some "562949953421312.3" := by
  decide +kernel

example : (ofText? "1.7976931348623157e308".toList).map isInfinite = some false := by decide +kernel

example : (ofText? "1.7976931348623159e308".toList).map isInfinite = some true := by decide +kernel

end Binary64

end FacetQuery
