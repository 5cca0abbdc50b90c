import SeisLog.Bytes
import SeisLog.Number.IbmSingle
import SeisLog.Number.Single

/-!
# Trace samples

The sample formats that a binary header may name, and the codings in which samples can be read.
Reading a sample as a double never rounds. A block is checked to hold whole samples, which the
blocks of a walk always do (`unpack_of_dvd`).
-/

namespace SeisLog

/-- How one sample is stored. -/
inductive SampleCoding
  | ibmSingle
  | int32
  | int16
  | ieeeSingle
  | int8
deriving DecidableEq, Repr

namespace SampleCoding

def width : SampleCoding → Nat
  | .ibmSingle | .int32 | .ieeeSingle => 4
  | .int16 => 2
  | .int8 => 1

theorem width_pos (coding : SampleCoding) : 0 < coding.width := by
  cases coding <;> decide

def decodeOne (coding : SampleCoding) (bytes : Bytes) : Binary64 :=
  match coding with
  | .ibmSingle => IbmSingle.ofBlockBytes bytes
  | .ieeeSingle => Single.ofBytes bytes
  | .int32 | .int16 | .int8 => Binary64.ofInt (Bytes.signed bytes)

/-- The samples of a block, one for each group of `width` bytes. -/
def decode (coding : SampleCoding) (block : Bytes) : List Binary64 :=
  (Bytes.groups coding.width block).map coding.decodeOne

inductive Fault
  | ibm (fault : IbmSingle.Fault)
  | elements (width length : Nat)
deriving DecidableEq, Repr

def Fault.message : Fault → String
  | .ibm fault => fault.message
  | .elements _ _ => "buffer size must be a multiple of element size"

/-- The samples of a block, refused where they are not whole. -/
def unpack (coding : SampleCoding) (block : Bytes) : Except Fault (List Binary64) :=
  match coding with
  | .ibmSingle => (IbmSingle.decodeBlock block).mapError .ibm
  | .int32 | .int16 | .ieeeSingle | .int8 =>
      if block.length % coding.width = 0 then .ok (coding.decode block)
      else .error (.elements coding.width block.length)

theorem unpack_of_dvd {coding : SampleCoding} {block : Bytes} (h : coding.width ∣ block.length) :
    coding.unpack block = .ok (coding.decode block) := by
  have hmod := Nat.mod_eq_zero_of_dvd h
  cases coding with
  | ibmSingle =>
      have hwords : block.length % 4 = 0 := hmod
      rw [unpack, IbmSingle.decodeBlock, if_pos hwords]
      rfl
  | int32 | int16 | ieeeSingle | int8 => exact if_pos hmod

end SampleCoding

inductive SampleFormat
  | unknown
  | ibmFloat
  | integer4
  | integer2
  | fixedPointWithGain
  | ieeeFloat
  | integer1
deriving DecidableEq, Repr

namespace SampleFormat

def all : List SampleFormat :=
  [.unknown, .ibmFloat, .integer4, .integer2, .fixedPointWithGain, .ieeeFloat, .integer1]

def label : SampleFormat → String
  | .unknown => "UNKNOWN"
  | .ibmFloat => "IBM_FLOAT"
  | .integer4 => "INTEGER_4_BYTE"
  | .integer2 => "INTEGER_2_BYTE"
  | .fixedPointWithGain => "FIXED_POINT_WITH_GAIN"
  | .ieeeFloat => "IEEE_FLOAT"
  | .integer1 => "INTEGER_1_BYTE"

def code : SampleFormat → Nat
  | .unknown => 0
  | .ibmFloat => 1
  | .integer4 => 2
  | .integer2 => 3
  | .fixedPointWithGain => 4
  | .ieeeFloat => 5
  | .integer1 => 8

def width? : SampleFormat → Option Nat
  | .unknown => none
  | .ibmFloat | .integer4 | .fixedPointWithGain | .ieeeFloat => some 4
  | .integer2 => some 2
  | .integer1 => some 1

def coding? : SampleFormat → Option SampleCoding
  | .ibmFloat => some .ibmSingle
  | .integer4 => some .int32
  | .integer2 => some .int16
  | .ieeeFloat => some .ieeeSingle
  | .integer1 => some .int8
  | .unknown | .fixedPointWithGain => none

def ofLabel? (label : String) : Option SampleFormat := all.find? (·.label == label)

/-- The format with a code; every code that no format has is unknown. -/
def ofCode (code : Int) : SampleFormat :=
  (all.find? fun format => format.code == code && format != .unknown).getD .unknown

theorem width?_eq_of_coding? {format : SampleFormat} {coding : SampleCoding}
    (h : format.coding? = some coding) : format.width? = some coding.width := by
  cases format <;> simp [coding?] at h <;> subst h <;> rfl

@[simp] theorem ofCode_code (format : SampleFormat) : ofCode format.code = format := by
  cases format <;> decide

end SampleFormat

end SeisLog
