import SeisLog.Proofs.Call
import SeisLog.Proofs.Region.Prefix
import SeisLog.Proofs.Segy.Extract
import SeisLog.Proofs.Summary

/-!
# The trace region of a SEG-Y stream

The binary header says how many samples follow a trace header that does not say so itself. The
summary of a region that was cut anywhere is that of the records that end before the cut.
-/

namespace SeisLog.Segy

def sampleCount (binary block : Bytes) : Nat :=
  let declared := Bytes.unsigned (Bytes.slice block 114 116)
  if lengthFlag binary = 1 ∨ declared = 0 then samplesPerTrace binary else declared

def traceOptions (config : Config) (binary : Bytes) (format : SampleFormat) : Walk.Options where
  format := format
  fallback := some (samplesPerTrace binary)
  fixed := if lengthFlag binary = 1 then some (samplesPerTrace binary : Int) else none
  charset := some config.charset
  cap := config.cap

theorem countAfter_traceOptions (config : Config) (binary : Bytes) (format : SampleFormat)
    (block : Bytes) :
    (traceOptions config binary format).countAfter traceHeader block =
      sampleCount binary block := by
  have hn : traceHeader.numberAt "number_of_samples" block =
      Bytes.unsigned (Bytes.slice block 114 116) := rfl
  unfold Walk.Options.countAfter sampleCount traceOptions
  dsimp only
  by_cases hf : lengthFlag binary = 1
  · simp [hf]
  · simp [hf, hn]

theorem traceOptions_eq (config : Config) (binary : Bytes) (format : SampleFormat) :
    traceOptions config binary format =
      walkOptions config (binaryForRevision (revision binary)) binary format := by
  unfold traceOptions walkOptions lengthFlag binaryForRevision
  by_cases hr : revision binary = 0
  · rw [if_pos hr, if_pos (Int.natCast_eq_zero.mpr hr)]
    rfl
  · rw [if_neg hr, if_neg (fun hc => hr (Int.natCast_eq_zero.mp hc))]
    rfl

theorem walkRegion_eq (config : Config) (binary : Bytes) (format : SampleFormat) (tape : Tape) :
    walkRegion config (headerOf binary) format tape =
      (do
        let summary ← Reading.summary config.traceLayout (traceOptions config binary format)
        return Survey.ofSummary summary : Reading Tape Survey) tape := by
  rw [headerOf_eq binary .usAscii, walkRegion_of_steers config (steers_binaryForRevision _),
    traceOptions_eq]

/-- How the records behind a binary header lie in the region. -/
def regionFrame (binary : Bytes) (coding : SampleCoding) : Frame where
  blockSize := traceHeaderSize
  header := Decoder.header ⟨traceHeader, .usAscii⟩
  count := sampleCount binary
  coding := coding

theorem frame_traceOptions (config : Config) (binary : Bytes) (format : SampleFormat)
    (coding : SampleCoding) :
    (traceOptions config binary format).frame coding ⟨traceHeader, .usAscii⟩ =
      regionFrame binary coding := by
  have hc : (traceOptions config binary format).countAfter traceHeader = sampleCount binary :=
    funext (countAfter_traceOptions config binary format)
  rw [Walk.Options.frame, regionFrame, hc]
  rfl

theorem sampleCount_lt (binary block : Bytes) : sampleCount binary block < 65536 := by
  have hu : ∀ bytes : Bytes, bytes.length ≤ 2 → Bytes.unsigned bytes < 65536 := by
    intro bytes hl
    exact Nat.lt_of_lt_of_le (Bytes.unsigned_lt bytes) (Nat.pow_le_pow_right (by decide) hl)
  have hs : ∀ (bytes : Bytes) (start : Nat), (Bytes.slice bytes start (start + 2)).length ≤ 2 := by
    intro bytes start
    rw [Bytes.slice, List.length_take]
    omega
  unfold sampleCount
  dsimp only
  split
  · exact hu _ (hs binary 20)
  · exact hu _ (hs block 114)

theorem sampleSize_le (binary : Bytes) (coding : SampleCoding) (block : Bytes) :
    (regionFrame binary coding).sampleSize block ≤ 65536 * 4 := by
  have hw : coding.width ≤ 4 := by cases coding <;> decide
  exact Nat.mul_le_mul (Nat.le_of_lt (sampleCount_lt binary block)) hw

/-- The size of a part of a record can be told. -/
theorem isPrintable_cut (binary : Bytes) (coding : SampleCoding) (index consumed : Nat)
    (rest : Bytes) :
    Numeral.isPrintable ((regionFrame binary coding).cut index consumed rest).expected = true := by
  apply Numeral.isPrintable_of_lt
  unfold Frame.cut
  split
  · show traceHeaderSize < 1 <<< 64
    decide
  · exact Nat.lt_of_le_of_lt (sampleSize_le binary coding _) (by decide)

theorem servedBy_of_isOpen (binary : Bytes) (coding : SampleCoding) {tape : Tape}
    (ht : tape.Flowing) (ho : tape.isOpen = true) : (regionFrame binary coding).ServedBy tape := by
  have hceiling : ((65536 * 4 : Nat) : Int) ≤ Tape.fileCeiling := by decide
  have hblock : (traceHeaderSize : Int) ≤ Tape.fileCeiling := by decide
  refine .of_grants ht (Tape.grants_of_isOpen ho hblock) fun block => ?_
  have hsize := Int.ofNat_le.mpr (sampleSize_le binary coding block)
  exact Tape.grants_of_isOpen ho (Int.le_trans hsize hceiling)

/-- A summary that covers the first `kept` records of a region of which `size` bytes were there. -/
structure Covers (coding : SampleCoding) (summary : Summary) (records : List RawTrace)
    (kept size : Nat) : Prop where
  kept_le : kept ≤ records.length
  extent_le : RawTrace.extent (records.take kept) ≤ size
  lt_extent : kept < records.length → size < RawTrace.extent (records.take (kept + 1))
  count : summary.count = kept
  least : summary.least = Summary.extreme? Binary64.lesser Binary64.lt
    ((records.take kept).map fun raw => coding.decode raw.samples)
  greatest : summary.greatest = Summary.extreme? Binary64.greater (fun x y => y.lt x)
    ((records.take kept).map fun raw => coding.decode raw.samples)
  consumed : summary.consumed = size
  whole : size = RawTrace.extent (records.take kept) →
    summary.isComplete = true ∧ summary.error = none
  cut : size ≠ RawTrace.extent (records.take kept) →
    summary.isComplete = false ∧
      ∃ cut : TraceCut, cut.index = kept ∧ cut.consumed = size ∧ 0 < cut.missing ∧
        summary.error = some cut.message

/-- A summary of all bytes of a region covers all of its records. -/
theorem Covers.of_extent {coding : SampleCoding} {summary : Summary} {records : List RawTrace}
    {kept size : Nat} (h : Covers coding summary records kept size)
    (hs : size = RawTrace.extent records) :
    summary.count = records.length ∧ summary.isComplete = true := by
  have hkept : kept = records.length := by
    rcases Nat.lt_or_eq_of_le h.kept_le with hlt | heq
    · have hend := h.lt_extent hlt
      have hle := RawTrace.extent_take_le records (kept + 1)
      omega
    · exact heq
  refine ⟨h.count.trans (congrArg Int.ofNat hkept), (h.whole ?_).1⟩
  rw [hs, hkept, List.take_length]

/-- The summary of the traces that a prefix holds covers them. -/
theorem covers_of_prefix {frame : Frame} {records kept : List RawTrace} {tail : Bytes} {k : Nat}
    (hp : 0 < frame.blockSize) (hr : ∀ raw ∈ records, frame.Holds raw) (hpre : kept <+: records)
    (hf : frame.traces 0 0 kept = (frame.traces 0 0 records).filter (·.consumed ≤ (k : Int)))
    (hs : frame.Short tail) (hl : RawTrace.extent kept + tail.length = k) :
    Covers frame.coding
      (Summary.ofTraces (frame.traces 0 0 kept)
        (if tail = [] then none
        else some (frame.cut kept.length (RawTrace.extent kept) tail).interruption))
      records kept.length k := by
  have hkept : records.take kept.length = kept := (List.prefix_iff_eq_take.mp hpre).symm
  have hlast := frame.getLast?_consumed 0 0 kept
  simp only [Int.natCast_zero, Nat.zero_add] at hlast
  rw [Summary.ofTraces_eq]
  refine ⟨hpre.length_le, ?_, Frame.lt_extent_of_take hp hr hpre hf, ?_, ?_, ?_, ?_, ?_, ?_⟩
  · rw [hkept]
    omega
  · rw [Frame.length_traces]
  · rw [Frame.map_samples_traces, hkept]
  · rw [Frame.map_samples_traces, hkept]
  · rw [hlast]
    by_cases hn : tail = []
    · rw [if_pos hn, ← hl, hn]
      rfl
    · rw [if_neg hn]
      show ((frame.cut kept.length (RawTrace.extent kept) tail).consumed : Int) = k
      rw [Frame.consumed_cut, hl]
  · intro he
    rw [hkept] at he
    have hn : tail = [] := List.eq_nil_of_length_eq_zero (by omega)
    rw [if_pos hn]
    exact ⟨rfl, rfl⟩
  · intro hne
    rw [hkept] at hne
    have hn : tail ≠ [] := by
      rintro rfl
      exact hne hl.symm
    rw [if_neg hn]
    refine ⟨rfl, _, Frame.index_cut _ _ _ _, ?_, hs.missing_pos hn _ _, rfl⟩
    rw [Frame.consumed_cut, hl]

/-- Whatever part of a region of records is there, its summary covers the records that end in it. -/
theorem walkRegion_of_take {config : Config} {binary : Bytes} {format : SampleFormat}
    {coding : SampleCoding} {records : List RawTrace} {tape : Tape} {k : Nat}
    (hformat : format.coding? = some coding) (htrace : config.traceLayout = traceHeader)
    (hcap : config.cap = none) (hrecords : ∀ raw ∈ records, (regionFrame binary coding).Holds raw)
    (hk : k ≤ RawTrace.extent records) (ht : tape.Flowing) (ho : tape.isOpen = true)
    (hu : tape.unread = (RawTrace.region records).take k) :
    ∃ kept summary left,
      walkRegion config (headerOf binary) format tape = (.ok (.ofSummary summary), left) ∧
        left.unread = [] ∧ Covers coding summary records kept k := by
  let frame := regionFrame binary coding
  let options := traceOptions config binary format
  let decoder : Decoder := ⟨traceHeader, .usAscii⟩
  let walk := options.fresh coding decoder
  have hstart : Walk.start config.traceLayout options = .ok walk := by
    have hopen : options.cap.any (· < 0) = false := by
      rw [show options.cap = none from hcap]
      rfl
    rw [htrace]
    exact Walk.start_eq_ok_iff.mpr ⟨coding, decoder, hformat, fun _ => rfl, hopen, rfl, rfl⟩
  have hf : walk.Follows frame := by
    have hfresh : walk.Follows (options.frame coding decoder) :=
      Walk.follows_fresh (by decide) (fun _ => ⟨_, rfl, rfl⟩) hcap
    rwa [show options.frame coding decoder = frame from
      frame_traceOptions config binary format coding] at hfresh
  have hp : 0 < frame.blockSize := hf.blockSize_pos
  have hrow : frame.Row (RawTrace.region records) records [] :=
    ⟨by simp, hrecords, Nat.lt_of_lt_of_le hp (Nat.le_add_right _ _)⟩
  obtain ⟨kept, tail, htake, hpre, hfilter⟩ := hrow.exists_take hp k
  have hfilter : frame.traces 0 0 kept =
      (frame.traces 0 0 records).filter (·.consumed ≤ (k : Int)) := by
    simpa only [Nat.zero_add] using hfilter 0 0
  have hbytes : frame.Row tape.unread kept tail := hu ▸ htake
  have hserved : frame.ServedBy tape := servedBy_of_isOpen binary coding ht ho
  obtain ⟨-, -, -, hempty⟩ := hf.run_row rfl hserved hbytes
  have hsummary := hf.summary_run rfl hserved hbytes (isPrintable_cut binary coding _ _ tail)
  rw [show walk.traces = 0 from rfl, show walk.consumed = 0 from rfl, Nat.zero_add,
    Nat.zero_add] at hsummary
  let run := walk.run none tape
  refine ⟨kept.length, _, (run.walk.close run.tape).2, ?_, ?_,
    covers_of_prefix hp hrecords hpre hfilter htake.short (htake.length_take hk)⟩
  · have hread := Reading.summary_eq hstart tape
    rw [hsummary] at hread
    rw [walkRegion_eq, Reading.bind_of_ok _ hread]
    rfl
  · rw [Walk.unread_close, hempty]

end SeisLog.Segy
