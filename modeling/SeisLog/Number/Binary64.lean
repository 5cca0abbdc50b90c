import SeisLog.Number.Rounding

/-!
# Double precision numbers

A double is its 64-bit pattern. Every finite double is a whole number of units of `2 ^ (-1074)`,
so order, difference, rounding and truncation are arithmetic on integers. Infinity counts as the
unit number that the next exponent would give, which keeps the order of the finite numbers.
-/

namespace SeisLog

structure Binary64 where
  bits : UInt64
deriving DecidableEq, Repr

namespace Binary64

/-- The pattern without its sign bit. -/
def magnitude (x : Binary64) : Nat := x.bits.toNat % (1 <<< 63)

def isNegative (x : Binary64) : Bool := 1 <<< 63 ≤ x.bits.toNat

def infinityMagnitude : Nat := 2047 <<< 52

def isNaN (x : Binary64) : Bool := infinityMagnitude < x.magnitude

def isInfinite (x : Binary64) : Bool := x.magnitude = infinityMagnitude

def isFinite (x : Binary64) : Bool := x.magnitude < infinityMagnitude

def isZero (x : Binary64) : Bool := x.magnitude = 0

def exponentField (x : Binary64) : Nat := x.magnitude / (1 <<< 52)

def fraction (x : Binary64) : Nat := x.magnitude % (1 <<< 52)

def significand (x : Binary64) : Nat :=
  if x.exponentField = 0 then x.fraction else 1 <<< 52 + x.fraction

/-- The absolute value, in units of `2 ^ (-1074)`. -/
def units (x : Binary64) : Nat := x.significand <<< (x.exponentField - 1)

def signedUnits (x : Binary64) : Int :=
  if x.isNegative then -(x.units : Int) else x.units

/-- The number of units in one. -/
def one : Nat := 1 <<< 1074

theorem one_pos : 0 < one := by decide

theorem shiftLeft_one (number : Nat) : number <<< 1074 = number * one := by
  rw [one, Nat.one_shiftLeft, Nat.shiftLeft_eq]

def ofMagnitude (negative : Bool) (magnitude : Nat) : Binary64 :=
  ⟨UInt64.ofNat (magnitude + if negative then 1 <<< 63 else 0)⟩

def zero : Binary64 := ⟨0⟩

def negativeZero : Binary64 := ofMagnitude true 0

def infinity (negative : Bool) : Binary64 := ofMagnitude negative infinityMagnitude

def nan : Binary64 := ofMagnitude false (infinityMagnitude + 1 <<< 51)

/-- The double nearest to `num / den` units, ties to the even significand. -/
def nearest (negative : Bool) (num den : Nat) : Binary64 :=
  let shift := (num / den).log2 - 52
  ofMagnitude negative (min (roundDiv num (den <<< shift) + shift <<< 52) infinityMagnitude)

def ofUnits (negative : Bool) (units : Nat) : Binary64 := nearest negative units 1

def ofRatio (negative : Bool) (num den : Nat) : Binary64 := nearest negative (num * one) den

def ofInt (n : Int) : Binary64 := ofUnits (n < 0) (n.natAbs * one)

def neg (x : Binary64) : Binary64 := ofMagnitude (!x.isNegative) x.magnitude

/-- NaN is not below anything, and the two zeros are equal. -/
def lt (x y : Binary64) : Bool :=
  !x.isNaN && !y.isNaN && x.signedUnits < y.signedUnits

def sub (x y : Binary64) : Binary64 :=
  if x.isNaN || y.isNaN then nan
  else if x.isInfinite then
    if y.isInfinite && x.isNegative == y.isNegative then nan else x
  else if y.isInfinite then y.neg
  else
    let difference := x.signedUnits - y.signedUnits
    if difference = 0 then
      if x.isNegative && !y.isNegative then negativeZero else zero
    else ofUnits (difference < 0) difference.natAbs

def mul (x y : Binary64) : Binary64 :=
  let negative := x.isNegative != y.isNegative
  if x.isNaN || y.isNaN then nan
  else if x.isInfinite || y.isInfinite then
    if x.isZero || y.isZero then nan else infinity negative
  else nearest negative (x.units * y.units) one

def truncate (x : Binary64) : Int := x.signedUnits.tdiv one

end Binary64

end SeisLog
