import SeisLog.Bytes
import SeisLog.Number.Binary64
import SeisLog.Number.Grid

/-!
# Single precision numbers

A single widens to the double of the same value: the sign of zero, infinities and NaN are kept. A
double narrows to the nearest single.
-/

namespace SeisLog.Single

def magnitude (word : UInt32) : Nat := word.toNat % (1 <<< 31)

def isNegative (word : UInt32) : Bool := 1 <<< 31 ≤ word.toNat

def exponentField (word : UInt32) : Nat := magnitude word / (1 <<< 23)

def fraction (word : UInt32) : Nat := magnitude word % (1 <<< 23)

def significand (word : UInt32) : Nat :=
  if exponentField word = 0 then fraction word else 1 <<< 23 + fraction word

def units (word : UInt32) : Nat := significand word <<< (max (exponentField word) 1 + 924)

def widen (word : UInt32) : Binary64 :=
  if exponentField word = 255 then
    Binary64.ofMagnitude (isNegative word) (Binary64.infinityMagnitude + fraction word <<< 29)
  else Binary64.ofUnits (isNegative word) (units word)

def infinityMagnitude : Nat := 255 <<< 23

def ofMagnitude (negative : Bool) (magnitude : Nat) : UInt32 :=
  UInt32.ofNat (magnitude + if negative then 1 <<< 31 else 0)

/-- The single nearest to a double, ties to the even significand; none if a finite double is too
large for it. -/
def narrow? (x : Binary64) : Option UInt32 :=
  if x.isFinite then
    let magnitude := Grid.nearest 23 x.units (1 <<< 925)
    if magnitude < infinityMagnitude then some (ofMagnitude x.isNegative magnitude) else none
  else some (ofMagnitude x.isNegative (infinityMagnitude + x.fraction >>> 29))

def ofBytes (bytes : Bytes) : Binary64 := widen (UInt32.ofNat (Bytes.unsigned bytes))

end SeisLog.Single
