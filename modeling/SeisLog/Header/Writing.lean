import SeisLog.Header.Basic

/-!
# Writing headers

The inverse of decoding: each value is encoded as its field wants it, and written over the bytes of
the field. A value of the wrong kind, out of range or of the wrong length is refused.
-/

namespace SeisLog

namespace Encoding

def signed? (width : Nat) (number : Int) : Option Bytes :=
  let size : Int := Nat.pow 256 width
  if -size ≤ 2 * number ∧ 2 * number < size then
    some (Bytes.ofUnsigned width (number % size).toNat)
  else none

def unsigned? (width : Nat) (number : Int) : Option Bytes :=
  if 0 ≤ number ∧ number < Nat.pow 256 width then some (Bytes.ofUnsigned width number.toNat)
  else none

def encode? (encoding : Encoding) (charset : Charset) (value : Value) : Option Bytes :=
  match encoding, value with
  | .int16, .integer number => signed? 2 number
  | .int32, .integer number => signed? 4 number
  | .uint16, .integer number => unsigned? 2 number
  | .ibmSingle, .real number => (IbmSingle.ofBinary64? number).map (Bytes.ofUnsigned 4 ·.toNat)
  | .ieeeSingle, .real number => (Single.narrow? number).map (Bytes.ofUnsigned 4 ·.toNat)
  | .text, .text content => charset.encode? content
  | _, _ => none

end Encoding

namespace Field

def write? (field : Field) (charset : Charset) (value : Value) (block : Bytes) : Option Bytes := do
  let raw ← field.encoding.encode? charset value
  if raw.length = field.span.length then some (block.splice field.span.start raw) else none

/-- A block with values written into fields, one field after the other. Fields without a value are
passed over. -/
def writeAll? (charset : Charset) (value? : String → Option Value) (fields : List Field)
    (block : Bytes) : Option Bytes :=
  match fields with
  | [] => some block
  | field :: rest =>
      match value? field.name with
      | none => writeAll? charset value? rest block
      | some value => do writeAll? charset value? rest (← field.write? charset value block)

end Field

end SeisLog
