import FacetQuery.Number.Binary64
import FacetQuery.Settings.Value

/-!
# `FacetQuery.Toml.Scalar` — numbers, truth values and dates of TOML

A value without quotes or brackets is one run of characters, `Scalar.read?`. Digits may be grouped by
single underscores; an integer must fit a signed word of 64 bits; a number that is not written `inf` must
be finite. A date or time stands for its own text, in which `T` and `Z` are capital, the fraction of a
second has no trailing zeros and no more than nine digits.
-/

namespace FacetQuery.Toml

/-! ## Numbers -/

/-- The digits of a group, without the single underscores that may stand between two digits. -/
def ungroup (isDigit : Char → Bool) : List Char → Option (List Char)
  | [] => none
  | [c] => if isDigit c then some [c] else none
  | c :: '_' :: r => if isDigit c then (ungroup isDigit r).map (c :: ·) else none
  | c :: r => if isDigit c then (ungroup isDigit r).map (c :: ·) else none

/-- The decimal digits of a number in front of its point: no zero leads others. -/
def wholeDigits? (cs : List Char) : Option (List Char) := do
  let ds ← ungroup Char.isDigit cs
  match ds with
  | '0' :: _ :: _ => none
  | _ => return ds

/-- The integer, if a signed word of 64 bits holds it. -/
def bounded? (i : Int) : Option SettingValue := if fitsInt64 i then some (.integer i) else none

/-- The number that digits in a base write. -/
def based? (base : Nat) (cs : List Char) : Option SettingValue := do
  let ds ← ungroup (fun c => (hexValue? c).any (· < base)) cs
  bounded? (← natOfBase? base ds)

/-- The exponent behind `e`: perhaps a sign, then digits, where zeros may lead. -/
def exponentPart? (cs : List Char) : Option Int :=
  match cs with
  | '-' :: r => (ungroup Char.isDigit r).map fun ds => -(natOfDigits ds : Int)
  | '+' :: r => (ungroup Char.isDigit r).map fun ds => (natOfDigits ds : Int)
  | r => (ungroup Char.isDigit r).map fun ds => (natOfDigits ds : Int)

/-- Whether a character starts an exponent. -/
def isExponentMark (c : Char) : Bool := c == 'e' || c == 'E'

/-- The number behind a sign. -/
def unsigned? (negative : Bool) (cs : List Char) : Option SettingValue := do
  if cs = ['i', 'n', 'f'] then return .float (.infinite negative)
  if cs = ['n', 'a', 'n'] then return .float .nan
  let (digits, power) := (cs.takeWhile (!isExponentMark ·), cs.dropWhile (!isExponentMark ·))
  let (front, back) := (digits.takeWhile (· ≠ '.'), digits.dropWhile (· ≠ '.'))
  let whole ← wholeDigits? front
  if back = [] ∧ power = [] then
    bounded? (if negative then -(natOfDigits whole : Int) else natOfDigits whole)
  else
    let fraction ← if back = [] then some [] else ungroup Char.isDigit back.tail
    let exponent ← if power = [] then some 0 else exponentPart? power.tail
    let x := Binary64.ofDecimal (.ofParts negative whole fraction exponent)
    if x.isInfinite then none else return .float x

/-- A number. -/
def number? : List Char → Option SettingValue
  | '0' :: 'x' :: r => based? 16 r
  | '0' :: 'o' :: r => based? 8 r
  | '0' :: 'b' :: r => based? 2 r
  | '+' :: r => unsigned? false r
  | '-' :: r => unsigned? true r
  | r => unsigned? false r

/-! ## Dates and times -/

/-- The number that exactly two digits write, if it is at most `most`. -/
def twoDigits? (most : Nat) (a b : Char) : Option Nat :=
  if a.isDigit ∧ b.isDigit ∧ natOfDigits [a, b] ≤ most then some (natOfDigits [a, b]) else none

/-- How many days a month has. -/
def daysIn (year month : Nat) : Nat :=
  if month = 2 then
    if (year % 4 = 0 ∧ year % 100 ≠ 0) ∨ year % 400 = 0 then 29 else 28
  else if month = 4 ∨ month = 6 ∨ month = 9 ∨ month = 11 then 30
  else 31

/-- A date at the front of a text, as it is written, and what follows it. -/
def date? : List Char → Option (List Char × List Char)
  | a :: b :: c :: d :: '-' :: e :: f :: '-' :: g :: h :: r => do
      if !([a, b, c, d].all Char.isDigit) then none
      let month ← twoDigits? 12 e f
      let day ← twoDigits? 31 g h
      if month = 0 ∨ day = 0 ∨ daysIn (natOfDigits [a, b, c, d]) month < day then none
      return ([a, b, c, d, '-', e, f, '-', g, h], r)
  | _ => none

/-- A text without the zeros at its end. -/
def dropTrailingZeros (ds : List Char) : List Char := (ds.reverse.dropWhile (· = '0')).reverse

/-- The fraction of a second behind its point, as it is shown, and what follows it. -/
def fraction? (cs : List Char) : Option (List Char × List Char) :=
  match cs.takeWhile Char.isDigit with
  | [] => none
  | ds =>
      let kept := dropTrailingZeros (ds.take 9)
      some ('.' :: (if kept = [] then ['0'] else kept), cs.dropWhile Char.isDigit)

/-- A time at the front of a text, as it is shown, and what follows it. -/
def time? : List Char → Option (List Char × List Char)
  | a :: b :: ':' :: c :: d :: r => do
      let _ ← twoDigits? 23 a b
      let _ ← twoDigits? 59 c d
      match r with
      | ':' :: e :: f :: r' =>
          let _ ← twoDigits? 60 e f
          match r' with
          | '.' :: r'' =>
              let (fraction, rest) ← fraction? r''
              return ([a, b, ':', c, d, ':', e, f] ++ fraction, rest)
          | _ => return ([a, b, ':', c, d, ':', e, f], r')
      | ':' :: _ => none
      | _ => return ([a, b, ':', c, d], r)
  | _ => none

/-- The offset of a time, as it is shown; it must end the text. -/
def offset? : List Char → Option (List Char)
  | [] => some []
  | ['Z'] => some ['Z']
  | ['z'] => some ['Z']
  | [s, a, b, ':', c, d] => do
      if s ≠ '+' ∧ s ≠ '-' then none
      let hours ← twoDigits? 23 a b
      let minutes ← twoDigits? 59 c d
      let sign := if hours = 0 ∧ minutes = 0 then '+' else s
      return [sign, a, b, ':', c, d]
  | _ => none

/-- A date, a time, or both, as it is shown. -/
def moment? (cs : List Char) : Option String :=
  match date? cs with
  | some (date, []) => some (String.ofList date)
  | some (date, mark :: r) =>
      if mark = 'T' ∨ mark = 't' ∨ mark = ' ' then do
        let (time, rest) ← time? r
        let offset ← offset? rest
        return String.ofList (date ++ 'T' :: time ++ offset)
      else none
  | none =>
      match time? cs with
      | some (time, []) => some (String.ofList time)
      | _ => none

/-! ## Any scalar -/

/-- The characters that end a value without quotes or brackets. -/
def endsScalar (c : Char) : Bool :=
  c == ' ' || c == '\t' || c == '\n' || c == '\r' || c == ',' || c == ']' || c == '\x7d' || c == '#'

/-- Cuts the run of a scalar off the front of a text. A date and a time may have one space between
    them. -/
def cutScalar (cs : List Char) : List Char × List Char :=
  let run := cs.takeWhile (!endsScalar ·)
  let rest := cs.dropWhile (!endsScalar ·)
  match date? run, rest with
  | some (_, []), ' ' :: d :: r =>
      if d.isDigit then
        (run ++ ' ' :: (d :: r).takeWhile (!endsScalar ·), (d :: r).dropWhile (!endsScalar ·))
      else (run, rest)
  | _, _ => (run, rest)

/-- The value of a scalar. -/
def scalar? (run : List Char) : Option SettingValue :=
  if run = ['t', 'r', 'u', 'e'] then some (.bool true)
  else if run = ['f', 'a', 'l', 's', 'e'] then some (.bool false)
  else
    match number? run with
    | some v => some v
    | none => (moment? run).map .text

end FacetQuery.Toml
