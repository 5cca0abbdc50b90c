import SeisLog.Proofs.Region.Unhindered
import SeisLog.Proofs.Segy.Extract

/-!
# Typed configurations

In a typed configuration the fields that steer an extraction hold integers. Whatever those are, the
survey of the traces comes to an end: with a complete summary, or with one warning instead
(`survey_ok`).
-/

namespace SeisLog.Segy

namespace Config

structure Typed (config : Config) : Prop where
  binary : ∀ layout ∈ config.binaryLayout, Steers layout
  traces : config.traceLayout.HasInteger "number_of_samples"
  cap : ∀ cap ∈ config.cap, 0 ≤ cap

/-- Trace headers are of a size that the tape grants and that can be written. -/
structure WalksOn (config : Config) (tape : Tape) : Prop where
  grants : tape.Grants config.traceLayout.readSize
  printable : Numeral.isPrintable config.traceLayout.readSize.toNat = true

variable {config : Config}

theorem Typed.probe (h : config.Typed) : Steers config.probe := by
  unfold Config.probe
  cases hb : config.binaryLayout with
  | none => exact steers_binaryRev1
  | some layout => exact h.binary layout hb

theorem Typed.layoutOf (h : config.Typed) (block : Bytes) : Steers (config.layoutOf block) := by
  unfold Config.layoutOf
  cases hb : config.binaryLayout with
  | none => exact steers_binaryForRevision _
  | some layout => exact h.binary layout hb

theorem Typed.check (h : config.Typed) : config.check = .ok () := by
  unfold Config.check
  cases hb : config.binaryLayout with
  | none => rfl
  | some layout =>
      have hs := h.binary layout hb
      have hlacking : requiredFields.filter (!layout.contains ·) = [] := by
        simp [requiredFields, hs.code.contains, hs.count.contains]
      dsimp only
      rw [hlacking]

theorem WalksOn.ahead {tape : Tape} (h : config.WalksOn tape) (passed : Nat) :
    config.WalksOn (tape.ahead passed) := ⟨h.grants.ahead passed, h.printable⟩

end Config

variable {config : Config} {charset : Charset} {layout : Layout} {format : SampleFormat}
  {coding : SampleCoding} {tape : Tape}

theorem countAfter_walkOptions_lt (hs : Steers layout) (htyped : config.Typed)
    (binary block : Bytes) (format : SampleFormat) :
    (walkOptions config layout binary format).countAfter config.traceLayout block < 1 <<< 32 := by
  have hcount := Layout.numberAt_lt hs.count.allows binary
  have htrace := Layout.numberAt_lt htyped.traces.allows block
  unfold Walk.Options.countAfter walkOptions
  by_cases hf : layout.numberAt "fixed_length_trace_flag" binary = 1
  · simp only [if_pos hf]
    omega
  · simp only [if_neg hf, Option.getD_some]
    split
    · omega
    · omega

theorem unhindered_fresh (hs : Steers layout) (htyped : config.Typed) (ht : tape.Flowing)
    (hwalks : config.WalksOn tape) (binary : Bytes) (format : SampleFormat)
    (coding : SampleCoding) :
    ((walkOptions config layout binary format).fresh coding
      (Decoder.of config.traceLayout charset)).Unhindered tape where
  flowing := ht
  size_pos := htyped.traces.readSize_pos
  grants := hwalks.grants
  printable := hwalks.printable
  count block := by
    refine ⟨_, countAfter_walkOptions_lt hs htyped binary block format, ?_⟩
    exact Walk.count_rule (fun _ => htyped.traces) block

theorem walkRegion_ok (hs : Steers layout) (htyped : config.Typed)
    (hc : Charset.named? config.charset = some charset) (ht : tape.Flowing)
    (hwalks : config.WalksOn tape) (hf : format.coding? = some coding) (binary : Bytes) :
    ∃ summary left, walkRegion config ((Decoder.of layout charset).header binary) format tape =
      (.ok (.ofSummary summary), left) := by
  let options := walkOptions config layout binary format
  let fresh := options.fresh coding (Decoder.of config.traceLayout charset)
  have hcap : options.cap.any (· < 0) = false := by
    have hpos := htyped.cap
    show config.cap.any (· < 0) = false
    cases hcap : config.cap with
    | none => rfl
    | some cap => exact decide_eq_false (Int.not_lt.mpr (hpos cap hcap))
  have hstart : Walk.start config.traceLayout options = .ok fresh :=
    Walk.start_eq_ok_iff.mpr ⟨coding, _, hf, fun _ => htyped.traces.contains, hcap,
      Decoder.make_of_named hc _, rfl⟩
  have hfresh : fresh.Unhindered tape := unhindered_fresh hs htyped ht hwalks binary format coding
  obtain ⟨summary, hsummary⟩ := hfresh.summary_run
  have hread := Reading.summary_eq hstart tape
  rw [hsummary] at hread
  rw [walkRegion_of_steers config hs]
  exact ⟨summary, _, Reading.bind_of_ok _ hread⟩

/-- A complete summary comes without a warning, and anything else with one. -/
def Survey.Fits (survey : Survey) : Prop :=
  ((∃ summary, survey.summary = some summary ∧ summary.isComplete = true) ∧
      survey.warnings = []) ∨
    ((¬ ∃ summary, survey.summary = some summary ∧ summary.isComplete = true) ∧
      ∃ warning, survey.warnings = [warning])

theorem Survey.fits_skipped (reason : String) : (Survey.skipped reason).Fits :=
  .inr ⟨(fun ⟨_, h, _⟩ => by cases h), _, rfl⟩

theorem Survey.fits_ofSummary (summary : Summary) : (Survey.ofSummary summary).Fits := by
  unfold ofSummary
  cases h : summary.isComplete with
  | true => exact .inl ⟨⟨summary, rfl, h⟩, rfl⟩
  | false =>
      refine .inr ⟨?_, _, rfl⟩
      rintro ⟨other, ho, hcomplete⟩
      cases ho
      rw [h] at hcomplete
      cases hcomplete

/-- Each exit of a survey fits. -/
theorem survey_ok (hs : Steers layout) (htyped : config.Typed)
    (hc : Charset.named? config.charset = some charset) (ht : tape.Flowing)
    (hwalks : config.WalksOn tape) (format : SampleFormat) (binary : Bytes) :
    ∃ found left, survey config ((Decoder.of layout charset).header binary) format tape =
      (.ok found, left) ∧ found.Fits := by
  have hextended := integerAt_of_allows hs.extended charset binary
  have hlt : layout.numberAt "extended_text_headers" binary < 1 <<< 32 :=
    Layout.numberAt_lt hs.extended binary
  cases hf : format.coding? with
  | none =>
      unfold survey
      rw [hf]
      exact ⟨_, tape, rfl, Survey.fits_skipped _⟩
  | some coding =>
      by_cases he : 0 ≤ layout.numberAt "extended_text_headers" binary
      · have hceiling : (Reading.usualChunk : Int) ≤ Tape.fileCeiling := by decide
        have hgrants : tape.Grants (min Reading.usualChunk
            (layout.numberAt "extended_text_headers" binary * extendedHeaderSize)) :=
          Tape.grants_of_isOpen (hwalks.grants.isOpen htyped.traces.readSize_pos)
            (Int.le_trans (Int.min_le_left _ _) hceiling)
        rw [survey_of_extended config hf hextended he hlt ht hgrants]
        dsimp only
        split
        · exact ⟨_, _, rfl, Survey.fits_ofSummary _⟩
        · obtain ⟨summary, left, hwalk⟩ :=
            walkRegion_ok hs htyped hc (ht.ahead _) (hwalks.ahead _) hf binary
          exact ⟨_, left, hwalk, Survey.fits_ofSummary _⟩
      · unfold survey
        rw [hf, if_neg (by simp), Reading.bind_of_ok _ (Reading.ofExcept_of_eq hextended tape),
          if_pos (Int.not_le.mp he)]
        exact ⟨_, tape, rfl, Survey.fits_skipped _⟩

end SeisLog.Segy
