import SeisLog.Charset
import SeisLog.Failure
import SeisLog.Fields
import SeisLog.Layout.Basic
import SeisLog.Number.IbmSingle
import SeisLog.Number.Single
import SeisLog.Tape.Reading

/-!
# Headers

A header holds the values of one block, by field name in the order of its layout. Each field is
unpacked with checks of its own, which never fail in a block that is long enough (`decode_of_le`):
the fields of a layout suit their encodings, and a decoder has the character set of its text. The
character set is resolved before the first byte is read.
-/

namespace SeisLog

structure Header where
  layout : String
  values : Fields Value
deriving DecidableEq, Repr

namespace Header

def names (header : Header) : List String := header.values.names

def get? (header : Header) (name : String) : Option Value := header.values.get? name

def listed (header : Header) : String :=
  let items := header.values.map fun (name, value) => Text.quoted name ++ ": " ++ value.listed
  "DecodedHeader(" ++ Text.quoted header.layout ++ ", \x7b" ++ ", ".intercalate items ++ "\x7d)"

end Header

namespace Encoding

def decode (encoding : Encoding) (charset : Charset) (bytes : Bytes) : Value :=
  match encoding with
  | .int16 | .int32 => .integer (Bytes.signed bytes)
  | .uint16 => .integer (Bytes.unsigned bytes)
  | .ibmSingle => .real (IbmSingle.ofBytes bytes)
  | .ieeeSingle => .real (Single.ofBytes bytes)
  | .text => .text (charset.decode bytes)

/-- A number of a fixed width, which takes no more bytes and no fewer. -/
def unpackNumber (encoding : Encoding) (width : Nat) (bytes : Bytes) : Except Failure Value :=
  if bytes.length = width then .ok (encoding.decode .usAscii bytes)
  else .error (.raw (.length width bytes.length))

/-- The value of a field, refused where the bytes are not as many as the encoding takes, or where
there is no character set for text. -/
def unpack (encoding : Encoding) (charset? : Option Charset) (bytes : Bytes) :
    Except Failure Value :=
  match encoding with
  | .int16 | .uint16 => encoding.unpackNumber 2 bytes
  | .int32 | .ieeeSingle => encoding.unpackNumber 4 bytes
  | .ibmSingle => ((IbmSingle.decodeWord bytes).mapError .ibm).map .real
  | .text =>
      match charset? with
      | some charset => .ok (.text (charset.decode bytes))
      | none => .error (.raw .noCharset)

theorem unpack_eq {encoding : Encoding} {charset? : Option Charset} {charset : Charset}
    {bytes : Bytes} (hw : ∀ width ∈ encoding.width?, bytes.length = width)
    (hc : encoding = .text → charset? = some charset) :
    encoding.unpack charset? bytes = .ok (encoding.decode charset bytes) := by
  cases encoding with
  | int16 | uint16 => exact if_pos (hw 2 rfl)
  | int32 | ieeeSingle => exact if_pos (hw 4 rfl)
  | ibmSingle =>
      rw [unpack, IbmSingle.decodeWord, if_pos (hw 4 rfl)]
      rfl
  | text =>
      unfold unpack
      rw [hc rfl]
      rfl

end Encoding

def Field.decode (field : Field) (charset : Charset) (block : Bytes) : Value :=
  field.encoding.decode charset (field.span.slice block)

def Charset.require (name : String) : Except Failure Charset :=
  match Charset.named? name with
  | some charset => .ok charset
  | none => .error (.charset name)

/-- A layout with the character set of its text fields, which no other layout consults. -/
structure Decoder where
  layout : Layout
  charset : Charset

namespace Decoder

def make (layout : Layout) (charset? : Option String) : Except Failure Decoder :=
  if layout.hasText then
    match charset? with
    | some name => (Charset.require name).map (⟨layout, ·⟩)
    | none => .error (.charsetNeeded layout.name)
  else .ok ⟨layout, .usAscii⟩

/-- The character set, which a layout without text has no use for. -/
def charset? (decoder : Decoder) : Option Charset :=
  if decoder.layout.hasText then some decoder.charset else none

def unpackAll (charset? : Option Charset) (block : Bytes) (done : Fields Value) :
    List Field → Except Failure (Fields Value)
  | [] => .ok done
  | field :: rest => do
      let value ← field.encoding.unpack charset? (field.span.slice block)
      unpackAll charset? block (done.set field.name value) rest

def decode (decoder : Decoder) (block : Bytes) : Except Failure Header :=
  let layout := decoder.layout
  if block.length < layout.requiredSize then
    .error (Failure.header ⟨.block layout.name, layout.requiredSize, block.length⟩).told
  else
    (unpackAll decoder.charset? block [] layout.fields).map (⟨layout.name, ·⟩)

theorem charset?_of_text {decoder : Decoder} {field : Field} (hf : field ∈ decoder.layout.fields)
    (h : field.encoding = .text) : decoder.charset? = some decoder.charset :=
  if_pos (List.any_eq_true.mpr ⟨field, hf, by simp [h]⟩)

theorem unpackAll_eq {charset? : Option Charset} {charset : Charset} {block : Bytes}
    {fields : List Field} (hc : ∀ field ∈ fields, field.encoding = .text → charset? = some charset)
    (hb : ∀ field ∈ fields, field.span.stop ≤ block.length) {done : Fields Value}
    (hn : (done.names ++ fields.map Field.name).Nodup) :
    unpackAll charset? block done fields =
      .ok (done ++ fields.map fun field => (field.name, field.decode charset block)) := by
  induction fields generalizing done with
  | nil => simp [unpackAll]
  | cons field rest ih =>
      obtain ⟨hcfield, hc⟩ := List.forall_mem_cons.mp hc
      obtain ⟨hbfield, hb⟩ := List.forall_mem_cons.mp hb
      have hw : ∀ width ∈ field.encoding.width?, (field.span.slice block).length = width := by
        rw [Span.slice, Bytes.length_slice_of_le hbfield]
        exact field.length_eq_width
      have hnew : field.name ∉ done.names := by
        intro hm
        exact (List.nodup_append.mp hn).2.2 _ hm _ List.mem_cons_self rfl
      have hset := Fields.set_of_not_mem hnew (field.decode charset block)
      have hrest : ((done.set field.name (field.decode charset block)).names ++
          rest.map Field.name).Nodup := by
        rw [hset]
        simpa [Fields.names] using hn
      rw [unpackAll, Encoding.unpack_eq hw hcfield]
      show unpackAll charset? block (done.set field.name (field.decode charset block)) rest = _
      rw [ih hc hb hrest, hset, List.append_assoc]
      rfl

theorem decode_of_le {decoder : Decoder} {block : Bytes}
    (h : decoder.layout.requiredSize ≤ block.length) :
    decoder.decode block = .ok ⟨decoder.layout.name, decoder.layout.fields.map fun field =>
      (field.name, field.decode decoder.charset block)⟩ := by
  have hb : ∀ field ∈ decoder.layout.fields, field.span.stop ≤ block.length :=
    fun field hf => Nat.le_trans (Layout.stop_le_requiredSize hf) h
  have hvalues := @unpackAll_eq decoder.charset? decoder.charset block decoder.layout.fields
    (fun _ hf => charset?_of_text hf) hb [] (by simpa [Fields.names] using decoder.layout.names_nodup)
  simp only [decode, if_neg (Nat.not_lt.mpr h), hvalues]
  rfl

/-- Decoding fails in one way: the block is too short. -/
theorem decode_eq_error_iff {decoder : Decoder} {block : Bytes} {failure : Failure} :
    decoder.decode block = .error failure ↔ block.length < decoder.layout.requiredSize ∧
      failure = (Failure.header
        ⟨.block decoder.layout.name, decoder.layout.requiredSize, block.length⟩).told := by
  by_cases h : block.length < decoder.layout.requiredSize
  · have hdecode : decoder.decode block = .error (Failure.header
        ⟨.block decoder.layout.name, decoder.layout.requiredSize, block.length⟩).told := if_pos h
    rw [hdecode, Except.error.injEq, eq_comm]
    exact (and_iff_right h).symm
  · rw [decode_of_le (Nat.not_lt.mp h)]
    exact ⟨nofun, fun hc => absurd hc.1 h⟩

end Decoder

/-! ### Readings -/

namespace Reading

variable {σ : Type} [Medium σ]

def textRest (charset : String) : Reading σ String := do
  let charset ← ofExcept (Charset.require charset)
  return charset.decode (← takeRest usualChunk)

/-- A block of text, kept as it is. A strict reading refuses a short block. -/
def textBlock (size : Int) (charset : String) (strict : Bool) : Reading σ String := do
  let charset ← ofExcept (Charset.require charset)
  let bytes ← take size
  if strict && bytes.length < size then fail (Failure.header ⟨.textBlock, size, bytes.length⟩).told
  else return charset.decode bytes

/-- One full block, or the rest where no size is given. -/
def text (charset : String) (size? : Option Int) : Reading σ String :=
  match size? with
  | some size => textBlock size charset true
  | none => textRest charset

def header (layout : Layout) (charset? : Option String) : Reading σ Header := do
  let decoder ← ofExcept (Decoder.make layout charset?)
  let size := layout.readSize
  let block ← take size
  if block.length < size then fail (Failure.header ⟨.stream layout.name, size, block.length⟩).told
  else ofExcept (decoder.decode block)

end Reading

end SeisLog
