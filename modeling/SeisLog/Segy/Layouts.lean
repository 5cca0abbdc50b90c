import SeisLog.Layout.Basic

/-!
# SEG-Y layouts

Offsets count from the start of each block. The second revision of the binary header adds the
revision word, the fixed-length flag and the number of extended textual headers to the first.
-/

namespace SeisLog.Segy

def textHeaderSize : Nat := 3200

def binaryHeaderSize : Nat := 400

def traceHeaderSize : Nat := 240

def extendedHeaderSize : Nat := 3200

def int16 (name : String) (start : Nat) (h : name ≠ "" := by decide) : Field :=
  ⟨name, ⟨start, start + 2, by omega⟩, .int16, h, by simp [Encoding.width?]⟩

def uint16 (name : String) (start : Nat) (h : name ≠ "" := by decide) : Field :=
  ⟨name, ⟨start, start + 2, by omega⟩, .uint16, h, by simp [Encoding.width?]⟩

def int32 (name : String) (start : Nat) (h : name ≠ "" := by decide) : Field :=
  ⟨name, ⟨start, start + 4, by omega⟩, .int32, h, by simp [Encoding.width?]⟩

def binaryFields : List Field := [
    int32 "job_id" 0, int32 "line_number" 4, int32 "reel_number" 8,
    int16 "traces_per_ensemble" 12, int16 "aux_traces_per_ensemble" 14,
    uint16 "sample_interval" 16, uint16 "sample_interval_original" 18,
    uint16 "samples_per_trace" 20, uint16 "samples_per_trace_original" 22,
    int16 "data_sample_code" 24, int16 "ensemble_fold" 26, int16 "trace_sorting_code" 28,
    int16 "measurement_system" 54]

def revisionFields : List Field := [
    uint16 "segy_revision" 300, int16 "fixed_length_trace_flag" 302,
    int16 "extended_text_headers" 304]

def traceFields : List Field := [
    int32 "trace_sequence_line" 0, int32 "trace_sequence_file" 4, int32 "field_record" 8,
    int32 "trace_number" 12, int32 "energy_source_point" 16, int32 "ensemble_number" 20,
    int32 "trace_number_in_ensemble" 24, int16 "trace_id_code" 28, int32 "offset" 36,
    int16 "coordinate_scalar" 70, int32 "source_x" 72, int32 "source_y" 76, int32 "group_x" 80,
    int32 "group_y" 84, int16 "coordinate_units" 88, uint16 "number_of_samples" 114,
    uint16 "sample_interval" 116, int32 "cdp_x" 180, int32 "cdp_y" 184, int32 "inline" 188,
    int32 "crossline" 192]

def binaryRev0 : Layout :=
  ⟨"segy_binary_header_rev0", binaryFields, some binaryHeaderSize, by decide, by decide⟩

def binaryRev1 : Layout :=
  ⟨"segy_binary_header_rev1", binaryFields ++ revisionFields, some binaryHeaderSize, by decide,
    by decide⟩

def traceHeader : Layout :=
  ⟨"segy_trace_header", traceFields, some traceHeaderSize, by decide, by decide⟩

def binaryForRevision (revision : Int) : Layout :=
  if revision = 0 then binaryRev0 else binaryRev1

theorem sampleCode_ne_empty : "data_sample_code" ≠ "" := by decide

theorem samplesPerTrace_ne_empty : "samples_per_trace" ≠ "" := by decide

theorem numberOfSamples_ne_empty : "number_of_samples" ≠ "" := by decide

theorem nodup_numberOfSamples :
    ([uint16 "number_of_samples" 0 numberOfSamples_ne_empty].map Field.name).Nodup := by decide

end SeisLog.Segy
