import SeisLog.Bytes
import SeisLog.Number.Binary64

/-!
# IBM single precision numbers

A word holds a sign bit, a base-16 exponent in excess 64 and a 24-bit fraction `m`; its value is
`m * 16 ^ (exponent - 70)`. A zero fraction is positive zero whatever the other bits say.
-/

namespace SeisLog.IbmSingle

def isNegative (word : UInt32) : Bool := 1 <<< 31 ≤ word.toNat

def exponentField (word : UInt32) : Nat := word.toNat / (1 <<< 24) % (1 <<< 7)

def fraction (word : UInt32) : Nat := word.toNat % (1 <<< 24)

/-- The absolute value in units of `2 ^ (-1074)`: `16 ^ (e - 70)` is `2 ^ (4 * e + 794)` units. -/
def units (word : UInt32) : Nat := fraction word <<< (4 * exponentField word + 794)

def sign (word : UInt32) : Binary64 := Binary64.ofInt (if isNegative word then -1 else 1)

def mantissa (word : UInt32) : Binary64 := Binary64.ofInt (fraction word)

/-- The power of sixteen that scales the fraction, a double. -/
def power (word : UInt32) : Binary64 := Binary64.ofUnits false (1 <<< (4 * exponentField word + 794))

def product (word : UInt32) : Binary64 := ((sign word).mul (mantissa word)).mul (power word)

/-- A single word: a zero fraction is told before anything is multiplied. -/
def toBinary64 (word : UInt32) : Binary64 :=
  if fraction word = 0 then Binary64.zero else product word

/-- A word of a block: the product is replaced where the fraction, as a double, is zero. -/
def blockToBinary64 (word : UInt32) : Binary64 :=
  if (mantissa word).isZero then Binary64.zero else product word

def ofParts (negative : Bool) (exponent fraction : Nat) : UInt32 :=
  UInt32.ofNat (fraction + exponent <<< 24 + if negative then 1 <<< 31 else 0)

/-- The word with a full leading digit that is nearest to a double, ties to the even fraction; none
if the double lies beyond the exponents. Zero has the word zero. -/
def ofBinary64? (x : Binary64) : Option UInt32 :=
  if x.units = 0 then some 0
  else if x.isFinite && 814 ≤ x.units.log2 then
    let exponent := (x.units.log2 - 814) / 4
    let fraction := roundDiv x.units (1 <<< (4 * exponent + 794))
    let (exponent, fraction) :=
      if fraction < 1 <<< 24 then (exponent, fraction) else (exponent + 1, fraction / 16)
    if exponent < 128 then some (ofParts x.isNegative exponent fraction) else none
  else none

/-- Only the low 32 bits of the number count. -/
def ofInt (word : Int) : Binary64 := toBinary64 (UInt32.ofNat (word % (1 <<< 32 : Nat)).toNat)

def ofBytes (bytes : Bytes) : Binary64 := toBinary64 (UInt32.ofNat (Bytes.unsigned bytes))

def ofBlockBytes (bytes : Bytes) : Binary64 :=
  blockToBinary64 (UInt32.ofNat (Bytes.unsigned bytes))

inductive Fault
  | wordLength (length : Nat)
  | blockLength (length : Nat)
deriving DecidableEq, Repr

def Fault.message : Fault → String
  | .wordLength length => s!"IBM float needs exactly 4 bytes, got {length}"
  | .blockLength length => s!"IBM float block length {length} is not a multiple of 4"

def decodeWord (bytes : Bytes) : Except Fault Binary64 :=
  if bytes.length = 4 then .ok (ofBytes bytes) else .error (.wordLength bytes.length)

def decodeBlock (bytes : Bytes) : Except Fault (List Binary64) :=
  if bytes.length % 4 = 0 then .ok ((Bytes.groups 4 bytes).map ofBlockBytes)
  else .error (.blockLength bytes.length)

end SeisLog.IbmSingle
