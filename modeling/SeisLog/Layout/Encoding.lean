/-!
# Field encodings

How the bytes of one header field stand for a value.
-/

namespace SeisLog

inductive Encoding
  | int16
  | uint16
  | int32
  | ibmSingle
  | ieeeSingle
  | text
deriving DecidableEq, Repr

namespace Encoding

def all : List Encoding := [.int16, .uint16, .int32, .ibmSingle, .ieeeSingle, .text]

def label : Encoding → String
  | .int16 => "INT16_BE"
  | .uint16 => "UINT16_BE"
  | .int32 => "INT32_BE"
  | .ibmSingle => "IBM_FLOAT32"
  | .ieeeSingle => "IEEE_FLOAT32"
  | .text => "FIXED_STRING"

def tag : Encoding → String
  | .int16 => "int16_be"
  | .uint16 => "uint16_be"
  | .int32 => "int32_be"
  | .ibmSingle => "ibm_float32"
  | .ieeeSingle => "ieee_float32"
  | .text => "fixed_string"

/-- The number of bytes, unless the field's own span sets it. -/
def width? : Encoding → Option Nat
  | .int16 | .uint16 => some 2
  | .int32 | .ibmSingle | .ieeeSingle => some 4
  | .text => none

def isNumeric (encoding : Encoding) : Bool := encoding != .text

def ofLabel? (label : String) : Option Encoding := all.find? (·.label == label)

@[simp] theorem ofLabel?_label (encoding : Encoding) : ofLabel? encoding.label = some encoding := by
  cases encoding <;> decide

end Encoding

end SeisLog
