import SeisLog.File
import SeisLog.Header.Basic
import SeisLog.Segy.Layouts

/-!
# SEG-Y records

A SEG-Y stream is a textual header, a binary header, extended textual headers and a trace region.
The content of a record is the sample format, the textual header and, on request, a description of
the traces. A trace region that is cut, or that cannot be walked, costs the record a warning only.
-/

namespace SeisLog.Segy

def mediaType : String := "application/segy"

def dcmiType : String := "Dataset"

def supportedTypes : List String := ["application/seg", "application/segy", "application/sgy"]

def extensions : List String := [".seg", ".segy", ".sgy"]

def requiredFields : List String := ["data_sample_code", "samples_per_trace"]

/-- Without a binary layout the revision word decides. -/
structure Config where
  charset : String := "IBM1047"
  textHeaderSize : Int := textHeaderSize
  binaryLayout : Option Layout := none
  traceLayout : Layout := traceHeader
  summarizes : Bool := false
  cap : Option Int := none

def canParse (path : String) : Bool := FileName.hasExtension extensions path

/-- A given binary layout must have the required fields. -/
def Config.check (config : Config) : Except Failure Unit :=
  match config.binaryLayout with
  | none => .ok ()
  | some layout =>
      match requiredFields.filter (!layout.contains ·) with
      | [] => .ok ()
      | lacking => .error (.layout (.lacking layout.name lacking))

/-- The fields of another layout, taken from a header. -/
def project (header : Header) (layout : Layout) : Header :=
  ⟨layout.name, layout.fieldNames.filterMap fun name =>
    (header.get? name).map fun value => (name, value)⟩

/-- The integer under a name, where a header without the field counts as zero. -/
def integerAt (header : Header) (name : String) : Except Failure Int :=
  ((header.get? name).getD (.integer 0)).toInteger.mapError .integer

section

variable {σ : Type} [Medium σ]

/-- The fields of the first revision keep their places in the second, so one block serves both. -/
def binaryHeader (config : Config) : Reading σ Header :=
  match config.binaryLayout with
  | some layout => Reading.header layout (some config.charset)
  | none => do
      let header ← Reading.header binaryRev1 (some config.charset)
      let revision ← Reading.ofExcept (integerAt header "segy_revision")
      return if revision = 0 then project header binaryRev0 else header

end

/-- A summary, if there is one, with the warning that goes with it. -/
structure Survey where
  summary : Option Summary
  warnings : List String

namespace Survey

def skipped (reason : String) : Survey := ⟨none, ["trace summary skipped: " ++ reason]⟩

def ofSummary (summary : Summary) : Survey :=
  ⟨some summary,
    if summary.isComplete then []
    else ["file is incomplete: " ++ summary.error.getD "None"]⟩

/-- The summary of a region that the stream does not reach. -/
def unreached (passed needed : Int) : Survey :=
  ofSummary (Summary.empty.interrupted
    ⟨s!"stream ended inside extended textual headers ({passed} of {needed} bytes)", 0⟩)

end Survey

section

variable {σ : Type} [Medium σ]

/-- Walks the region at the tape's place under the counts of the binary header. -/
def walkRegion (config : Config) (header : Header) (format : SampleFormat) :
    Reading σ Survey := do
  let flag ← Reading.ofExcept (integerAt header "fixed_length_trace_flag")
  let count ← Reading.ofExcept (integerAt header "samples_per_trace")
  let summary ← Reading.summary config.traceLayout {
    format
    fallback := some count
    fixed := if flag = 1 then some count else none
    charset := some config.charset
    cap := config.cap }
  return .ofSummary summary

def survey (config : Config) (header : Header) (format : SampleFormat) : Reading σ Survey :=
  if format.coding?.isNone then
    return .skipped s!"samples stored as {format.label} are not decoded"
  else do
    let extended ← Reading.ofExcept (integerAt header "extended_text_headers")
    if extended < 0 then
      return .skipped "variable number of extended textual headers"
    let needed := extended * extendedHeaderSize
    let passed ← Reading.skip needed Reading.usualChunk
    if passed < needed then
      if Numeral.isPrintable needed.toNat then return .unreached passed needed
      else Reading.fail .unprintable
    else walkRegion config header format

def extract (config : Config) : Reading σ Record := do
  Reading.ofExcept config.check
  let _ ← Reading.ofExcept (Charset.require config.charset)
  let text ← Reading.text config.charset (some config.textHeaderSize)
  let header ← binaryHeader config
  let code ← Reading.ofExcept (integerAt header "data_sample_code")
  let format := SampleFormat.ofCode code
  let shown := ((header.get? "data_sample_code").map Value.plain).getD ""
  let unknown :=
    if format = .unknown then ["unknown data sample code " ++ shown] else []
  let survey ←
    if config.summarizes then survey config header format else pure ⟨none, []⟩
  let description := (survey.summary.map Summary.describe).getD ""
  return {
    mediaType, dcmiType
    content := format.label ++ " " ++ text ++ " " ++ description
    fields := header.values.set "data_sample_format" (.text format.label)
    summary := survey.summary
    warnings := unknown ++ survey.warnings }

end

/-- The record of a file, which is looked for before anything else. -/
def extractFile (file : File) (config : Config) : Except Failure Record :=
  file.read (extract config)

end SeisLog.Segy
