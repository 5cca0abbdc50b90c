import SeisLog.Proofs.Segy.Outcome

/-!
# Extractions with a summary

To ask for the summary of the traces adds to the record of a stream. It neither brings in a failure
nor hides one, and what the record says without it stays as it is (`extract_summarized`).
-/

namespace SeisLog.Segy

/-- What a summary, or its absence, adds to a record. -/
structure Adds (record whole : Record) : Prop where
  fields : whole.fields = record.fields
  mediaType : whole.mediaType = record.mediaType
  dcmiType : whole.dcmiType = record.dcmiType
  content : whole.content = record.content ++ (whole.summary.map Summary.describe).getD ""
  warnings : ∃ added, whole.warnings = record.warnings ++ added ∧
    (added = [] ↔ ∃ summary, whole.summary = some summary ∧ summary.isComplete = true) ∧
    (added ≠ [] → ∃ warning, added = [warning])

theorem Survey.Fits.adds {survey : Survey} (h : survey.Fits) (text : String) (header : Header)
    (code : Int) :
    Adds (recordWith text header code ⟨none, []⟩) (recordWith text header code survey) where
  fields := rfl
  mediaType := rfl
  dcmiType := rfl
  content := by
    unfold recordWith
    simp only [Option.map_none, Option.getD_none, String.append_empty]
  warnings := by
    refine ⟨survey.warnings, ?_, ?_⟩
    · unfold recordWith
      simp only [List.append_nil]
    · show (survey.warnings = [] ↔
          ∃ summary, survey.summary = some summary ∧ summary.isComplete = true) ∧ _
      rcases h with ⟨hcomplete, hnone⟩ | ⟨hcomplete, warning, hone⟩
      · exact ⟨⟨fun _ => hcomplete, fun _ => hnone⟩, fun hne => (hne hnone).elim⟩
      · refine ⟨⟨?_, fun hc => (hcomplete hc).elim⟩, fun _ => ⟨warning, hone⟩⟩
        intro hnone
        rw [hnone] at hone
        cases hone

def Config.asking (config : Config) (summarizes : Bool) : Config :=
  { config with summarizes }

variable {config : Config} {tape : Tape}

theorem headings_asking (config : Config) (summarizes : Bool) :
    headings (config.asking summarizes) = headings config := by
  simp only [headings, binaryHeader, Config.check, Config.asking]

theorem Config.Typed.asking (h : config.Typed) (summarizes : Bool) :
    (config.asking summarizes).Typed := ⟨h.binary, h.traces, h.cap⟩

theorem Config.WalksOn.asking (h : config.WalksOn tape) (summarizes : Bool) :
    (config.asking summarizes).WalksOn tape := ⟨h.grants, h.printable⟩

theorem surveyed_asking (htyped : config.Typed) {charset : Charset}
    (hc : Charset.named? config.charset = some charset) (ht : tape.Flowing)
    (hwalks : config.WalksOn tape) (text : String) (block : Bytes) :
    let found := (text, config.headerOf charset block)
    ∃ record whole left, surveyed (config.asking false) found tape = (.ok record, tape) ∧
      surveyed (config.asking true) found tape = (.ok whole, left) ∧ Adds record whole := by
  intro found
  obtain ⟨survey, left, hfull, hfits⟩ := surveyed_full (htyped.asking true) rfl hc ht
    (hwalks.asking true) text block
  exact ⟨_, _, left, surveyed_bare (htyped.asking false) rfl text block tape, hfull,
    hfits.adds text _ _⟩

/-- With a summary and without one an extraction fails alike. Else the bare record takes the bytes
of the headings, and the summary adds its description to the content and, unless it is complete, one
warning. -/
theorem extract_summarized (htyped : config.Typed) (ht : tape.Flowing)
    (hwalks : config.WalksOn tape) :
    (∀ failure, (extract (config.asking true) tape).1 = .error failure ↔
        (extract (config.asking false) tape).1 = .error failure) ∧
      ∀ record left, extract (config.asking false) tape = (.ok record, left) →
        (left = tape.ahead (config.textHeaderSize.toNat + config.probe.readSize.toNat) ∧
          config.textHeaderSize.toNat + config.probe.readSize.toNat ≤ tape.unread.length) ∧
        ∃ whole, (extract (config.asking true) tape).1 = .ok whole ∧ Adds record whole := by
  rw [extract_eq, extract_eq, headings_asking, headings_asking]
  cases hh : headings config tape with
  | mk answer after =>
      cases answer with
      | error failure =>
          rw [Reading.bind_of_error _ hh, Reading.bind_of_error _ hh]
          refine ⟨fun _ => Iff.rfl, ?_⟩
          intro record left h
          cases h
      | ok found =>
          obtain ⟨charset, hc, hle, rfl, rfl⟩ :=
            headings_ok htyped.check htyped.probe.code.readSize_pos ht hh
          obtain ⟨record, whole, left, hbare, hfull, hadds⟩ :=
            surveyed_asking htyped hc (ht.ahead config.headingsSize) (hwalks.ahead _)
              (charset.decode (tape.unread.take config.textHeaderSize.toNat))
              (config.blockIn tape.unread)
          rw [Reading.bind_of_ok _ hh, Reading.bind_of_ok _ hh, hbare, hfull]
          refine ⟨?_, ?_⟩
          · intro failure
            constructor
            · intro h
              cases h
            · intro h
              cases h
          · intro other rest h
            cases h
            exact ⟨⟨rfl, hle⟩, whole, rfl, hadds⟩

/-- A region of two traces of one-byte samples, the second one cut. -/
def cutRegion : Bytes :=
  [0x41] ++ (List.replicate 24 0 ++ [0, 8] ++ List.replicate 374 0) ++
    (List.replicate 114 0 ++ [0, 2] ++ List.replicate 124 0 ++ [7, 9]) ++ List.replicate 100 0

theorem extract_summarized_cutRegion :
    summarizing.Typed ∧ (Tape.ofBytes cutRegion (some 3) []).Flowing ∧
      summarizing.WalksOn (Tape.ofBytes cutRegion (some 3) []) ∧
      ∃ record whole,
        (extract (summarizing.asking false) (Tape.ofBytes cutRegion (some 3) [])).1 = .ok record ∧
        (extract (summarizing.asking true) (Tape.ofBytes cutRegion (some 3) [])).1 = .ok whole ∧
        whole.content = record.content ++ (whole.summary.map Summary.describe).getD "" := by
  have ht : (Tape.ofBytes cutRegion (some 3) []).Flowing := ⟨rfl, by decide⟩
  have hwalks : summarizing.WalksOn (Tape.ofBytes cutRegion (some 3) []) :=
    ⟨rfl, by decide +kernel⟩
  have hc : Charset.named? summarizing.charset = some .usAscii := by decide +kernel
  obtain ⟨record, hrecord⟩ := extract_of_headings (typed_summarizing.asking false) hc ht
    (Config.refusal?_eq_none_iff.mpr ⟨rfl, fun _ => rfl⟩) nofun (by decide +kernel)
  obtain ⟨-, hadds⟩ := extract_summarized typed_summarizing ht hwalks
  obtain ⟨-, whole, hwhole, hadded⟩ := hadds record _ (Prod.ext hrecord rfl)
  exact ⟨typed_summarizing, ht, hwalks, record, whole, hrecord, hwhole, hadded.content⟩

/-- A trace header of `2 ^ 63` bytes. -/
def oversizedHeader : Layout :=
  ⟨"t", [uint16 "number_of_samples" 0 numberOfSamples_ne_empty], some (1 <<< 63),
    nodup_numberOfSamples, by decide⟩

def oversizedTraces : Config where
  charset := "ascii"
  textHeaderSize := 1
  binaryLayout := some fourBytes
  traceLayout := oversizedHeader

theorem typed_oversizedTraces : oversizedTraces.Typed where
  binary layout h := by
    cases h
    exact steers_fourBytes
  traces := ⟨_, rfl, rfl⟩
  cap cap h := by cases h

/-- Headings with no trace behind them. -/
def headingsOnly : Tape := .ofFile [0x54, 0, 8, 0, 0]

/-- Two records that the summary costs: a file does not hand out a trace header of `2 ^ 63` bytes,
and the size of the cut trace header cannot be written. -/
theorem extract_summarized_of_sizes :
    (oversizedTraces.Typed ∧ headingsOnly.Flowing ∧
        (∃ record, (extract (oversizedTraces.asking false) headingsOnly).1 = .ok record) ∧
        (extract (oversizedTraces.asking true) headingsOnly).1 = .error (.request (1 <<< 63))) ∧
      untold.Typed ∧ oneByteOfTrace.Flowing ∧
        (∃ record, (extract (untold.asking false) oneByteOfTrace).1 = .ok record) ∧
        (extract (untold.asking true) oneByteOfTrace).1 = .error .unprintable := by
  have hfile : headingsOnly.Flowing := ⟨rfl, fun h => by cases h⟩
  have hstream : oneByteOfTrace.Flowing := ⟨rfl, fun h => by cases h⟩
  have hc : Charset.named? "ascii" = some .usAscii := by decide +kernel
  have hfull : (extract (oversizedTraces.asking true) headingsOnly).1 =
      .error (.request (1 <<< 63)) := by
    with_unfolding_all rfl
  refine ⟨⟨typed_oversizedTraces, hfile, ?_, hfull⟩, typed_untold, hstream, ?_, extract_untold⟩
  · exact extract_of_headings (typed_oversizedTraces.asking false) hc hfile
      (Config.refusal?_eq_none_iff.mpr ⟨rfl, fun _ => rfl⟩) nofun (by decide +kernel)
  · exact extract_of_headings (typed_untold.asking false) hc hstream
      (Config.refusal?_eq_none_iff.mpr ⟨rfl, fun _ => rfl⟩) nofun (by decide +kernel)

end SeisLog.Segy
