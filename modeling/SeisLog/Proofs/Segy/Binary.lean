import Mathlib.Data.List.Basic
import SeisLog.Proofs.Stages
import SeisLog.Segy.Extract

/-!
# Numbers of the binary header

The numbers that steer the reading of a SEG-Y stream, said of the 400 bytes of its binary header.
Where the revision word is zero, the flag and the number of extended headers count as zero.

A block is decoded in the layout of its revision, unless a configuration has a layout of its own
(`Config.headerOf`). The stream is read by one layout in every case (`Config.probe`).
-/

namespace SeisLog.Segy

def revision (binary : Bytes) : Nat := Bytes.unsigned (Bytes.slice binary 300 302)

def sampleCode (binary : Bytes) : Int := Bytes.signed (Bytes.slice binary 24 26)

def samplesPerTrace (binary : Bytes) : Nat := Bytes.unsigned (Bytes.slice binary 20 22)

def lengthFlag (binary : Bytes) : Int :=
  if revision binary = 0 then 0 else Bytes.signed (Bytes.slice binary 302 304)

def extendedCount (binary : Bytes) : Int :=
  if revision binary = 0 then 0 else Bytes.signed (Bytes.slice binary 304 306)

def sampleFormat (binary : Bytes) : SampleFormat := SampleFormat.ofCode (sampleCode binary)

/-- The number of bytes of one sample, zero in an unknown format. -/
def sampleWidth (binary : Bytes) : Nat := (sampleFormat binary).width?.getD 0

def headerOf (binary : Bytes) : Header :=
  let header := Decoder.header ⟨binaryRev1, .usAscii⟩ binary
  if revision binary = 0 then project header binaryRev0 else header

private theorem lookup_filterMap {α : Type} (f : String → Option α) (names : List String)
    (name : String) :
    (names.filterMap fun other => (f other).map fun value => (other, value)).lookup name =
      if name ∈ names then f name else none := by
  induction names with
  | nil => rfl
  | cons other names ih =>
      by_cases hn : name = other
      · subst hn
        cases hf : f name with
        | none => simp [hf, ih]
        | some value => simp [hf]
      · have hm : (name == other) = false := by simpa using hn
        cases hf : f other with
        | none => simp [hf, ih, hn]
        | some value => simp [hf, List.lookup_cons, hm, ih, hn]

/-- A projected header answers for the fields of its layout as before, and for no other. -/
theorem get?_project (header : Header) (layout : Layout) (name : String) :
    (project header layout).get? name =
      if name ∈ layout.fieldNames then header.get? name else none :=
  lookup_filterMap header.get? layout.fieldNames name

theorem project_header {wide narrow : Layout} (h : ∀ field ∈ narrow.fields, field ∈ wide.fields)
    (charset : Charset) (block : Bytes) :
    project (Decoder.header ⟨wide, charset⟩ block) narrow =
      Decoder.header ⟨narrow, charset⟩ block := by
  let header := Decoder.header ⟨wide, charset⟩ block
  have hvalues : (narrow.fieldNames.filterMap fun name =>
      (header.get? name).map fun value => (name, value)) =
        narrow.fields.map fun field => (field.name, field.decode charset block) := by
    rw [Layout.fieldNames, List.filterMap_map]
    apply List.filterMap_eq_map_iff_forall_eq_some.mpr
    intro field hf
    have hget : header.get? field.name = some (field.decode charset block) := by
      have hfield : (Decoder.mk wide charset).layout.field? field.name = some field :=
        Layout.field?_of_mem (h field hf)
      rw [Decoder.get?_header, hfield]
      rfl
    show (header.get? field.name).map _ = _
    rw [hget]
    rfl
  rw [project, hvalues]
  rfl

theorem mem_binaryRev1 : ∀ field ∈ binaryRev0.fields, field ∈ binaryRev1.fields :=
  fun _ hf => List.mem_append_left revisionFields hf

theorem headerOf_eq (binary : Bytes) (charset : Charset) :
    headerOf binary = (Decoder.of (binaryForRevision (revision binary)) charset).header binary := by
  unfold headerOf binaryForRevision
  dsimp only
  by_cases hr : revision binary = 0
  · rw [if_pos hr, if_pos (Int.natCast_eq_zero.mpr hr)]
    exact project_header mem_binaryRev1 .usAscii binary
  · rw [if_neg hr, if_neg (fun hc => hr (Int.natCast_eq_zero.mp hc))]
    rfl

theorem integerAt_header {decoder : Decoder} {name : String}
    (h : decoder.layout.HasInteger name) (block : Bytes) :
    integerAt (decoder.header block) name = .ok (decoder.layout.numberAt name block) := by
  rw [integerAt, Decoder.toInteger_header h]
  rfl

/-- A number of the binary header, zero where its revision lacks the field. -/
theorem integerAt_headerOf {name : String} (h : binaryRev1.HasInteger name) (binary : Bytes) :
    integerAt (headerOf binary) name =
      .ok (if revision binary = 0 ∧ name ∉ binaryRev0.fieldNames then 0
        else binaryRev1.numberAt name binary) := by
  let decoder : Decoder := ⟨binaryRev1, .usAscii⟩
  have hrev1 := integerAt_header (show decoder.layout.HasInteger name from h) binary
  unfold headerOf
  dsimp only
  by_cases hr : revision binary = 0
  · rw [if_pos hr]
    by_cases hn : name ∈ binaryRev0.fieldNames
    · rw [if_neg (fun hc => hc.2 hn), ← hrev1, integerAt, get?_project, if_pos hn, integerAt]
    · rw [if_pos ⟨hr, hn⟩, integerAt, get?_project, if_neg hn]
      rfl
  · rw [if_neg hr, if_neg (fun hc => hr hc.1)]
    exact hrev1

theorem integerAt_sampleCode (binary : Bytes) :
    integerAt (headerOf binary) "data_sample_code" = .ok (sampleCode binary) := by
  rw [integerAt_headerOf ⟨_, rfl, rfl⟩, if_neg (fun hc => hc.2 (by decide))]
  rfl

theorem integerAt_extendedCount (binary : Bytes) :
    integerAt (headerOf binary) "extended_text_headers" = .ok (extendedCount binary) := by
  have hn : "extended_text_headers" ∉ binaryRev0.fieldNames := by decide
  rw [integerAt_headerOf ⟨_, rfl, rfl⟩, extendedCount]
  simp only [hn, not_false_eq_true, and_true]
  rfl

/-- The fields of a binary header that steer an extraction; the last two may be missing. -/
structure Steers (layout : Layout) : Prop where
  code : layout.HasInteger "data_sample_code"
  count : layout.HasInteger "samples_per_trace"
  extended : layout.AllowsInteger "extended_text_headers"
  flag : layout.AllowsInteger "fixed_length_trace_flag"

theorem steers_binaryRev1 : Steers binaryRev1 :=
  ⟨⟨_, rfl, rfl⟩, ⟨_, rfl, rfl⟩, fun _ => ⟨_, rfl, rfl⟩, fun _ => ⟨_, rfl, rfl⟩⟩

theorem steers_binaryRev0 : Steers binaryRev0 :=
  ⟨⟨_, rfl, rfl⟩, ⟨_, rfl, rfl⟩, fun h => absurd h (by decide), fun h => absurd h (by decide)⟩

theorem steers_binaryForRevision (revision : Int) : Steers (binaryForRevision revision) := by
  unfold binaryForRevision
  split
  · exact steers_binaryRev0
  · exact steers_binaryRev1

/-- Whatever a field that may hold integers holds is an integer, zero where it is missing. -/
theorem integerAt_of_allows {layout : Layout} {name : String} (h : layout.AllowsInteger name)
    (charset : Charset) (block : Bytes) :
    integerAt ((Decoder.of layout charset).header block) name =
      .ok (layout.numberAt name block) := by
  have hvalue := Decoder.toInteger_of_allows
    (show (Decoder.of layout charset).layout.AllowsInteger name from h) block
  rw [integerAt, hvalue]
  rfl

/-- The layout by which the binary header is read from a stream. -/
def Config.probe (config : Config) : Layout := config.binaryLayout.getD binaryRev1

def Config.layoutOf (config : Config) (block : Bytes) : Layout :=
  config.binaryLayout.getD (binaryForRevision (revision block))

def Config.headerOf (config : Config) (charset : Charset) (block : Bytes) : Header :=
  (Decoder.of (config.layoutOf block) charset).header block

/-- The binary header that comes of the header that was read. -/
def Config.settle (config : Config) (header : Header) : Except Failure Header :=
  match config.binaryLayout with
  | some _ => .ok header
  | none => (integerAt header "segy_revision").map fun revision =>
      if revision = 0 then project header binaryRev0 else header

theorem binaryHeader_eq (config : Config) :
    (binaryHeader config : Reading Tape Header) = (do
      let header ← Reading.header config.probe (some config.charset)
      Reading.ofExcept (config.settle header)) := by
  unfold binaryHeader Config.settle Config.probe
  cases config.binaryLayout with
  | some layout => exact (bind_pure _).symm
  | none =>
      simp only [Reading.ofExcept_map]
      rfl

theorem Config.headerOf_of_none {config : Config} (hb : config.binaryLayout = none)
    (charset : Charset) (block : Bytes) :
    config.headerOf charset block = Segy.headerOf block := by
  rw [headerOf_eq block charset, Config.headerOf, Config.layoutOf, hb]
  rfl

/-- Whatever was read by the probe is settled. -/
theorem Config.settle_header (config : Config) (charset : Charset) (block : Bytes) :
    config.settle ((Decoder.of config.probe charset).header block) =
      .ok (config.headerOf charset block) := by
  cases hb : config.binaryLayout with
  | some layout =>
      simp only [Config.settle, Config.headerOf, Config.probe, Config.layoutOf, hb]
      rfl
  | none =>
      have hr : integerAt ((Decoder.of binaryRev1 charset).header block) "segy_revision" =
          .ok (revision block : Int) := integerAt_header ⟨_, rfl, rfl⟩ block
      rw [headerOf_of_none hb, Segy.headerOf]
      simp only [Config.settle, Config.probe, hb, Option.getD_none, hr, Except.map,
        Int.natCast_eq_zero]
      rfl

variable {config : Config} {charset : Charset} {tape after : Tape}

theorem binaryHeader_of_ok {block : Bytes}
    (h : Reading.header config.probe (some config.charset) tape =
      (.ok ((Decoder.of config.probe charset).header block), after)) :
    binaryHeader config tape = (.ok (config.headerOf charset block), after) := by
  rw [binaryHeader_eq, Reading.bind_of_ok _ h, Config.settle_header]
  rfl

theorem binaryHeader_of_error {failure : Failure}
    (h : Reading.header config.probe (some config.charset) tape = (.error failure, after)) :
    binaryHeader config tape = (.error failure, after) := by
  rw [binaryHeader_eq, Reading.bind_of_error _ h]

end SeisLog.Segy
