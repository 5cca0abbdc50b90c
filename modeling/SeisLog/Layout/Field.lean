import SeisLog.Bytes
import SeisLog.Layout.Datum
import SeisLog.Layout.Encoding

/-!
# Fields of a layout

A field is a nonempty name over a span of bytes whose length suits its encoding. `Fault` lists all
that can be wrong with a layout.
-/

namespace SeisLog

/-- The offsets `start ≤ i < stop`. -/
structure Span where
  start : Nat
  stop : Nat
  start_lt_stop : start < stop
deriving DecidableEq, Repr

structure Field where
  name : String
  span : Span
  encoding : Encoding
  name_ne_empty : name ≠ ""
  length_eq_width : ∀ width ∈ encoding.width?, span.stop - span.start = width
deriving DecidableEq, Repr

namespace Layout

inductive Fault
  | blockSize (layout : String) (size : Int)
  | shape (given : Datum)
  | encoding (field : String) (given : Datum)
  | offset (fault : Datum.OffsetFault)
  | negativeStart (start : Int)
  | emptySpan (start stop : Int)
  | emptyName
  | width (field : String) (kind : Encoding) (needed : Nat) (span : Span)
  | duplicate (layout field : String)
  | beyond (layout field : String) (stop : Nat) (size : Int)
  | lacking (layout : String) (fields : List String)
  | unprintable

namespace Fault

def message : Fault → String
  | .blockSize layout size => s!"schema '{layout}': block size must be > 0, got {size}"
  | .shape given => "expected (name, start, end, type), got " ++ given.shown
  | .encoding field given => s!"field '{field}': unknown decode type " ++ given.shown
  | .offset fault => fault.message
  | .negativeStart start => s!"negative start offset: {start}"
  | .emptySpan start stop => s!"start offset {start} must be < end offset {stop}"
  | .emptyName => "field name must be a non-empty string"
  | .width field kind needed span =>
      s!"field '{field}': {kind.label} needs {needed} bytes, range [{span.start}, {span.stop}) spans {span.stop - span.start}"
  | .duplicate layout field => s!"schema '{layout}': duplicate field name '{field}'"
  | .beyond layout field stop size =>
      s!"schema '{layout}': field '{field}' ends at {stop}, beyond block size {size}"
  | .lacking layout fields =>
      s!"binary header schema {Text.quoted layout} lacks fields: " ++ ", ".intercalate fields
  | .unprintable => Numeral.Fault.unprintable.message

def numbers : Fault → List Int
  | .blockSize _ size => [size]
  | .shape given | .encoding _ given => given.numbers
  | .negativeStart start => [start]
  | .emptySpan start stop => [start, stop]
  | .width _ _ _ span => [span.start, span.stop, (span.stop - span.start : Nat)]
  | .beyond _ _ stop size => [stop, size]
  | .offset _ | .emptyName | .duplicate _ _ | .lacking _ _ | .unprintable => []

/-- The fault itself, unless its message would need a number with too many digits. -/
def told (fault : Fault) : Fault :=
  if Numeral.arePrintable fault.numbers then fault else .unprintable

end Fault

end Layout

namespace Span

def length (span : Span) : Nat := span.stop - span.start

def slice (span : Span) (block : Bytes) : Bytes := block.slice span.start span.stop

def make (start stop : Int) : Except Layout.Fault Span :=
  if hs : start < 0 then .error (Layout.Fault.negativeStart start).told
  else if h : start < stop then .ok ⟨start.toNat, stop.toNat, by omega⟩
  else .error (Layout.Fault.emptySpan start stop).told

end Span

namespace Field

def make (name : String) (span : Span) (encoding : Encoding) : Except Layout.Fault Field :=
  if hn : name = "" then .error .emptyName
  else
    match h : encoding.width? with
    | none => .ok ⟨name, span, encoding, hn, by simp [h]⟩
    | some width =>
        if hw : span.stop - span.start = width then
          .ok ⟨name, span, encoding, hn, by simp [h, hw]⟩
        else .error (Layout.Fault.width name encoding width span).told

end Field

end SeisLog
