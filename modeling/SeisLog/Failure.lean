import SeisLog.Layout.Field
import SeisLog.Sample
import SeisLog.Value

/-!
# Failures

Why an operation on a layout, a header or a stream gives no answer. Each failure carries what its
message tells.
-/

namespace SeisLog

/-- Where a header block came out too short. -/
inductive HeaderPlace
  | textBlock
  | block (layout : String)
  | stream (layout : String)
deriving DecidableEq, Repr

structure HeaderCut where
  place : HeaderPlace
  expected : Int
  actual : Nat
deriving DecidableEq, Repr

def HeaderCut.message (cut : HeaderCut) : String :=
  match cut.place with
  | .textBlock =>
      s!"text block: expected {cut.expected} bytes, stream ended after {cut.actual}"
  | .block layout => s!"{layout}: block has {cut.actual} bytes, fields need {cut.expected}"
  | .stream layout =>
      s!"{layout}: stream ended after {cut.actual} of {cut.expected} header bytes"

/-- Why the bytes of a field stand for no value. -/
inductive FieldFault
  | length (width actual : Nat)
  | noCharset
deriving DecidableEq, Repr

def FieldFault.message : FieldFault → String
  | .length width actual => s!"a number of {width} bytes does not fit {actual} bytes"
  | .noCharset => "text without a charset"

inductive TracePart
  | header
  | samples
deriving DecidableEq, Repr

/-- A trace that the stream did not hold in full: `actual` of the `expected` bytes of one part. -/
structure TraceCut where
  index : Nat
  part : TracePart
  expected : Nat
  actual : Nat
  consumed : Nat
deriving DecidableEq, Repr

def TraceCut.missing (cut : TraceCut) : Nat := cut.expected - cut.actual

def TraceCut.message (cut : TraceCut) : String :=
  match cut.part with
  | .header => s!"trace {cut.index}: header cut after {cut.actual} of {cut.expected} bytes"
  | .samples =>
      s!"trace {cut.index}: sample block cut after {cut.actual} of {cut.expected} bytes"

/-- Why a text gives no log header. Only an unreadable line is a matter of the header's own lines;
the other faults concern the file as a whole. -/
inductive Las.Fault
  | unreadable (number : Nat) (title line : String)
  | pointCloud
  | noSections
  | version
  | emptyTitle
  | delimiter
  | curveKind
deriving DecidableEq, Repr

def Las.Fault.message : Las.Fault → String
  | .unreadable number title line => s!"Line {number} (section {title}): \"{line}\""
  | .pointCloud => "the file is a point cloud, not a log"
  | .noSections => "no section titles"
  | .version => "unknown version"
  | .emptyTitle => "a section title is empty"
  | .delimiter => "unknown delimiter"
  | .curveKind => "the curve section holds no curves"

inductive Failure
  | layout (fault : Layout.Fault)
  | charset (name : String)
  | header (cut : HeaderCut)
  | raw (fault : FieldFault)
  | trace (cut : TraceCut)
  | sampleFormat (format : SampleFormat)
  | charsetNeeded (layout : String)
  | countField (layout field : String)
  | negativeCap
  | integer (fault : Value.IntegerFault)
  | ibm (fault : IbmSingle.Fault)
  | samples (fault : SampleCoding.Fault)
  | closed
  | request (size : Nat)
  | log (fault : Las.Fault)
  | noFile
  | directory

namespace Failure

/-- A message that would need a number with too many digits. -/
def unprintable : Failure := .integer (.numeral .unprintable)

/-- Why an answer stands for no integer. -/
def integerFault? {α : Type} : Except Failure α → Option Value.IntegerFault
  | .error (.integer fault) => some fault
  | _ => none

def size? : Failure → Option Nat
  | .header cut => some cut.expected.natAbs
  | .trace cut => some cut.expected
  | _ => none

def isTellable (failure : Failure) : Bool := failure.size?.all Numeral.isPrintable

/-- The failure itself, unless its message cannot be written. -/
def told (failure : Failure) : Failure := if failure.isTellable then failure else unprintable

theorem eq_of_integerFault? {α : Type} {answer : Except Failure α} {fault : Value.IntegerFault}
    (h : integerFault? answer = some fault) : answer = .error (.integer fault) := by
  unfold integerFault? at h
  split at h
  · rw [Option.some.inj h]
  · cases h

theorem told_header (cut : HeaderCut) : (Failure.header cut).told =
    if Numeral.isPrintable cut.expected.natAbs then .header cut else unprintable := rfl

theorem told_header_of_lt {cut : HeaderCut} (h : cut.expected.natAbs < 1 <<< 64) :
    (Failure.header cut).told = .header cut := if_pos (Numeral.isPrintable_of_lt h)

theorem told_trace (cut : TraceCut) : (Failure.trace cut).told =
    if Numeral.isPrintable cut.expected then .trace cut else unprintable := rfl

def message : Failure → String
  | .layout fault => fault.message
  | .charset name =>
      s!"charset {Text.quoted name} is not supported; the file cannot be parsed."
  | .header cut => cut.message
  | .raw fault => fault.message
  | .trace cut => cut.message
  | .sampleFormat format =>
      s!"cannot decode trace samples stored as {format.label} (code {format.code})"
  | .charsetNeeded name => s!"schema '{name}' has text fields; a charset is required"
  | .countField name field => s!"trace schema '{name}' has no field '{field}'"
  | .negativeCap => "max_traces must be >= 0"
  | .integer fault => fault.message
  | .ibm fault => fault.message
  | .samples fault => fault.message
  | .closed => "I/O operation on closed file."
  | .request size => s!"a file does not hand out {size} bytes at once"
  | .log fault => fault.message
  | .noFile => "no such file"
  | .directory => "a directory is no file"

end Failure

end SeisLog
