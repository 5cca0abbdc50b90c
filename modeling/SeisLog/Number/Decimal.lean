import SeisLog.Number.Binary64

/-!
# Decimal text of doubles

A positive ratio is put on the grid of `n`-digit decimals, exactly, in natural numbers.
`Binary64.shortest` is the least number of digits that reads back to the same double, and the
nearest such decimal; `Binary64.rounded` keeps a given number of digits. A `Style` says how the
digits are written down.
-/

namespace SeisLog

namespace Decimal

/-- The number `0.d₁d₂… * 10 ^ point`. -/
structure Digits where
  numeral : List Char
  point : Int
deriving DecidableEq, Repr

/-- The `point` of a positive ratio: `10 ^ (point - 1) ≤ num / den < 10 ^ point`. -/
def point (num den : Nat) : Int :=
  if den ≤ num then (Nat.toDigits 10 (num / den)).length
  else 1 - ((Nat.toDigits 10 ((den + num - 1) / num - 1)).length : Int)

def scaled (num den : Nat) (step : Int) : Nat × Nat :=
  (num * Nat.pow 10 (-step).toNat, den * Nat.pow 10 step.toNat)

/-- `numeral * 10 ^ (point - count)`, where a carry may have made `count + 1` digits. -/
def Digits.ofNumeral (numeral count : Nat) (point : Int) : Digits :=
  let digits := Nat.toDigits 10 numeral
  let kept := (digits.reverse.dropWhile (· == '0')).reverse
  ⟨if kept.isEmpty then ['0'] else kept, point + digits.length - count⟩

/-- The decimal of `count` digits nearest to the ratio, a tie going to the even digit. -/
def rounded (count num den : Nat) : Digits :=
  let point := point num den
  let (a, b) := scaled num den (point - count)
  .ofNumeral (roundDiv a b) count point

/-- How digits are written: positional for `lowest < point ≤ highest`, else with an exponent of at
least two digits; a whole number may keep `.0`. -/
structure Style where
  lowest : Int
  highest : Int
  keepsPoint : Bool

def exponentText (exponent : Int) : String :=
  let digits := Nat.toDigits 10 exponent.natAbs
  let padded := if digits.length < 2 then '0' :: digits else digits
  (if exponent < 0 then "e-" else "e+") ++ String.ofList padded

def Style.write (style : Style) (digits : Digits) : String :=
  let numeral := digits.numeral
  if style.lowest < digits.point ∧ digits.point ≤ style.highest then
    if digits.point ≤ 0 then
      "0." ++ String.ofList (List.replicate (-digits.point).toNat '0' ++ numeral)
    else
      let whole := digits.point.toNat
      let tail := numeral.drop whole
      let head := numeral.take whole ++ List.replicate (whole - numeral.length) '0'
      if tail.isEmpty then String.ofList head ++ (if style.keepsPoint then ".0" else "")
      else String.ofList (head ++ '.' :: tail)
  else
    let mantissa :=
      match numeral with
      | first :: second :: rest => first :: '.' :: second :: rest
      | short => short
    String.ofList mantissa ++ exponentText (digits.point - 1)

end Decimal

namespace Binary64

open Decimal

/-- Whether `m` on the grid `a / b` lies among the numbers that round to the double. The distances
`below` and `above` to the midpoints are in the unit of `a`, and the midpoints count if `closed`. -/
def within (a b below above : Nat) (closed : Bool) (m : Nat) : Bool :=
  let distance := if m * b ≤ a then a - m * b else m * b - a
  let gap := if m * b ≤ a then below else above
  distance < gap || (closed && distance == gap)

/-- The first grid from `count` digits on, of the next `tries` ones, that has a decimal within. -/
def shortestFrom (x : Binary64) (point : Int) (count : Nat) : Nat → Digits
  | 0 => rounded count x.units one
  | tries + 1 =>
      let step := point - count
      let (a, b) := scaled (4 * x.units) (4 * one) step
      let half := 2 <<< (x.exponentField - 1) * Nat.pow 10 (-step).toNat
      let below := if x.fraction = 0 ∧ 1 < x.exponentField then half / 2 else half
      let hit := within a b below half (x.significand % 2 == 0)
      let near := roundDiv a b
      let far := if near * b ≤ a then near + 1 else near - 1
      if hit near then .ofNumeral near count point
      else if hit far then .ofNumeral far count point
      else shortestFrom x point (count + 1) tries

/-- The shortest decimal that reads back to a finite nonzero double; seventeen digits suffice. -/
def shortest (x : Binary64) : Digits :=
  shortestFrom x (Decimal.point x.units one) 1 16

def signText (x : Binary64) : String := if x.isNegative then "-" else ""

def write (style : Style) (digits : Binary64 → Digits) (x : Binary64) : String :=
  if x.isNaN then "nan"
  else if x.isInfinite then x.signText ++ "inf"
  else if x.units = 0 then x.signText ++ style.write ⟨['0'], 1⟩
  else x.signText ++ style.write (digits x)

/-- The text of a value: shortest digits, positional from 0.0001 up to below 10 ^ 16. -/
def toText (x : Binary64) : String :=
  x.write ⟨-4, 16, true⟩ shortest

/-- The text of a statistic: six digits, positional from 0.0001 up to below 10 ^ 6. -/
def toStatistic (x : Binary64) : String :=
  x.write ⟨-4, 6, false⟩ fun y => rounded 6 y.units one

end Binary64

end SeisLog
