import SeisLog.Proofs.Segy.Headings

/-!
# Extraction on flowing tapes

On a flowing tape that grants what it asks for, an extraction either fails in the textual or in the
binary header, or it gives a record whose survey starts right behind them (`extract_of_le`). The
survey passes over the extended headers, and it walks the region under the counts of the binary
header.
-/

namespace SeisLog.Segy

/-- The record of a decoded textual header, a binary header and a survey. -/
def recordOf (text : String) (binary : Bytes) (survey : Survey) : Record where
  mediaType := mediaType
  dcmiType := dcmiType
  content := (sampleFormat binary).label ++ " " ++ text ++ " " ++
    (survey.summary.map Summary.describe).getD ""
  fields := (headerOf binary).values.set "data_sample_format" (.text (sampleFormat binary).label)
  summary := survey.summary
  warnings :=
    let shown := (((headerOf binary).get? "data_sample_code").map Value.plain).getD ""
    (if sampleFormat binary = .unknown then ["unknown data sample code " ++ shown] else []) ++
      survey.warnings

theorem extendedCount_lt (binary : Bytes) : extendedCount binary < 1 <<< 32 := by
  have hs : (Bytes.slice binary 304 306).length ≤ 4 := by
    rw [Bytes.slice, List.length_take]
    omega
  unfold extendedCount
  split
  · exact Int.natCast_pos.mpr (by decide)
  · exact Encoding.int16.number_lt hs

def walkOptions (config : Config) (layout : Layout) (block : Bytes) (format : SampleFormat) :
    Walk.Options where
  format := format
  fallback := some (layout.numberAt "samples_per_trace" block)
  fixed :=
    if layout.numberAt "fixed_length_trace_flag" block = 1 then
      some (layout.numberAt "samples_per_trace" block)
    else none
  charset := some config.charset
  cap := config.cap

theorem walkRegion_of_steers (config : Config) {layout : Layout} (hs : Steers layout)
    (charset : Charset) (block : Bytes) (format : SampleFormat) (tape : Tape) :
    walkRegion config ((Decoder.of layout charset).header block) format tape =
      (do
        let summary ← Reading.summary config.traceLayout (walkOptions config layout block format)
        return Survey.ofSummary summary : Reading Tape Survey) tape := by
  have hflag := Reading.ofExcept_of_eq (integerAt_of_allows hs.flag charset block) tape
  have hcount := Reading.ofExcept_of_eq (integerAt_of_allows hs.count.allows charset block) tape
  rw [walkRegion, Reading.bind_of_ok _ hflag, Reading.bind_of_ok _ hcount]
  rfl

variable {config : Config} {header : Header} {binary : Bytes} {format : SampleFormat}
  {coding : SampleCoding} {charset : Charset} {tape : Tape}

/-- The extended headers are passed over before anything else. -/
theorem survey_of_extended (config : Config) (hf : format.coding? = some coding) {extended : Int}
    (hextended : integerAt header "extended_text_headers" = .ok extended) (he : 0 ≤ extended)
    (hlt : extended < 1 <<< 32) (ht : tape.Flowing)
    (hg : tape.Grants (min Reading.usualChunk (extended * extendedHeaderSize))) :
    survey config header format tape =
      let needed := extended * extendedHeaderSize
      let passed := min needed.toNat tape.unread.length
      if passed < needed then (.ok (.unreached passed needed), tape.ahead needed.toNat)
      else walkRegion config header format (tape.ahead needed.toNat) := by
  have hc := Reading.ofExcept_of_eq hextended tape
  have hp : Numeral.isPrintable (extended * extendedHeaderSize).toNat = true := by
    apply Numeral.isPrintable_of_lt
    rw [show extendedHeaderSize = 3200 from rfl]
    omega
  rw [survey, hf, if_neg (by simp), Reading.bind_of_ok _ hc, if_neg (by omega),
    Reading.bind_of_ok _ (Reading.skip_of_flowing ht (by decide) hg)]
  simp only [hp, if_true]
  split
  · rfl
  · rfl

theorem survey_eq (config : Config) (hf : format.coding? = some coding)
    (he : 0 ≤ extendedCount binary) (ht : tape.Flowing) (ho : tape.isOpen = true) :
    survey config (headerOf binary) format tape =
      let needed := extendedCount binary * extendedHeaderSize
      let passed := min needed.toNat tape.unread.length
      if passed < needed then (.ok (.unreached passed needed), tape.ahead needed.toNat)
      else walkRegion config (headerOf binary) format (tape.ahead needed.toNat) := by
  have hceiling : (Reading.usualChunk : Int) ≤ Tape.fileCeiling := by decide
  exact survey_of_extended config hf (integerAt_extendedCount binary) he (extendedCount_lt binary)
    ht (Tape.grants_of_isOpen ho (Int.le_trans (Int.min_le_left _ _) hceiling))

theorem grants_probe (hb : config.binaryLayout = none) (ho : tape.isOpen = true) :
    tape.Grants config.probe.readSize := by
  rw [probe_of_none hb]
  exact Tape.grants_of_isOpen ho (by decide)

section

variable (hcharset : Charset.named? config.charset = some charset)
  (hb : config.binaryLayout = none) (ht : tape.Flowing)
  (htext : tape.Grants config.textHeaderSize) (ho : tape.isOpen = true)

include hcharset hb ht htext

theorem extract_of_text_lt (hl : tape.unread.length < config.textHeaderSize) :
    extract config tape =
      (.error (Failure.header ⟨.textBlock, config.textHeaderSize, tape.unread.length⟩).told,
        tape.ahead config.textHeaderSize.toNat) := by
  rw [extract_eq, Reading.bind_of_error _
    (headings_of_text_lt (check_of_none hb) hcharset ht htext hl)]

include ho in
theorem extract_of_binary_lt (hn : config.textHeaderSize ≤ tape.unread.length)
    (hl : tape.unread.length < config.textHeaderSize.toNat + 400) :
    extract config tape =
      (.error (.header ⟨.stream "segy_binary_header_rev1", 400,
        tape.unread.length - config.textHeaderSize.toNat⟩),
        tape.ahead (config.textHeaderSize.toNat + 400)) := by
  have hsize := headingsSize_of_none hb
  have hpos : 0 < config.probe.readSize := by
    rw [probe_of_none hb]
    decide
  have hheadings := headings_of_block_lt (check_of_none hb) hcharset ht htext hpos
    (grants_probe hb ho) hn (hsize ▸ hl)
  rw [hsize, probe_of_none hb, show binaryRev1.readSize = 400 from rfl,
    Failure.told_header_of_lt (show (400 : Int).natAbs < _ by decide)] at hheadings
  rw [extract_eq, Reading.bind_of_error _ hheadings]
  rfl

include ho in
theorem extract_of_le (hs : config.summarizes = true)
    (hl : config.textHeaderSize.toNat + 400 ≤ tape.unread.length)
    (hbinary : (tape.unread.drop config.textHeaderSize.toNat).take 400 = binary)
    {found : Survey} {left : Tape}
    (hsurvey : survey config (headerOf binary) (sampleFormat binary)
      (tape.ahead (config.textHeaderSize.toNat + 400)) = (.ok found, left)) :
    extract config tape =
      (.ok (recordOf (charset.decode (tape.unread.take config.textHeaderSize.toNat)) binary found),
        left) := by
  have hsize := headingsSize_of_none hb
  have hpos : 0 < config.probe.readSize := by
    rw [probe_of_none hb]
    decide
  have hblock : config.blockIn tape.unread = binary := by
    rw [Config.blockIn, probe_of_none hb]
    exact hbinary
  have hheadings := headings_of_le (check_of_none hb) hcharset ht htext hpos (grants_probe hb ho)
    (hsize ▸ hl)
  rw [hsize, hblock, Config.headerOf_of_none hb] at hheadings
  have hcode := Reading.ofExcept_of_eq (integerAt_sampleCode binary)
    (tape.ahead (config.textHeaderSize.toNat + 400))
  rw [extract_eq, Reading.bind_of_ok _ hheadings, surveyed, Reading.bind_of_ok _ hcode, if_pos hs]
  exact Reading.bind_of_ok _ hsurvey

end

end SeisLog.Segy
