import SeisLog.Proofs.Segy.Typed

/-!
# Outcomes of an extraction

With a typed configuration an extraction from a flowing tape fails in its headings, or it yields a
record. The character set, the requests that the tape refuses, the number of its bytes and the sizes
that a message can tell say which (`extract_outcome`).
-/

namespace SeisLog

namespace Segy

namespace Config

/-- Why the tape does not answer a request of the headings. The block is asked for behind a whole
text only. -/
def refusal? (config : Config) (tape : Tape) : Option Failure :=
  match Reading.refused? config.textHeaderSize tape with
  | some failure => some failure
  | none =>
      if config.textHeaderSize ≤ tape.unread.length then
        Reading.refused? config.probe.readSize tape
      else none

/-- The header at which a stream ends that is too short for the headings. -/
def cut (config : Config) (tape : Tape) : HeaderCut :=
  if tape.unread.length < config.textHeaderSize then
    ⟨.textBlock, config.textHeaderSize, tape.unread.length⟩
  else
    ⟨.stream config.probe.name, config.probe.readSize,
      tape.unread.length - config.textHeaderSize.toNat⟩

theorem refusal?_eq_none_iff {config : Config} {tape : Tape} :
    config.refusal? tape = none ↔ tape.Grants config.textHeaderSize ∧
      (config.textHeaderSize ≤ tape.unread.length → tape.Grants config.probe.readSize) := by
  unfold refusal? Tape.Grants
  cases Reading.refused? config.textHeaderSize tape with
  | some failure => exact ⟨nofun, fun h => nomatch h.1⟩
  | none => simp

/-- A refusal tells of no header, and of no character set. -/
theorem kind_of_refusal {config : Config} {tape : Tape} {failure : Failure}
    (h : config.refusal? tape = some failure) :
    failure = .closed ∨ ∃ size, failure = .request size := by
  unfold refusal? at h
  split at h
  · rename_i other hr
    cases h
    exact Reading.kind_of_refused hr
  · split at h
    · exact Reading.kind_of_refused h
    · cases h

end Config

variable {config : Config} {charset : Charset} {tape : Tape}

/-- The code of a typed header makes the record; what is surveyed goes into it. -/
theorem surveyed_eq (htyped : config.Typed) (text : String) (block : Bytes) (tape : Tape) :
    surveyed config (text, config.headerOf charset block) tape =
      (do
        let code := (config.layoutOf block).numberAt "data_sample_code" block
        let survey ←
          if config.summarizes then
            survey config (config.headerOf charset block) (SampleFormat.ofCode code)
          else pure ⟨none, []⟩
        return recordWith text (config.headerOf charset block) code survey :
          Reading Tape Record) tape := by
  have hcode := Reading.ofExcept_of_eq
    (integerAt_of_allows (htyped.layoutOf block).code.allows charset block) tape
  exact Reading.bind_of_ok _ hcode

/-- Without a summary the record is complete behind the headings. -/
theorem surveyed_bare (htyped : config.Typed) (hs : config.summarizes = false) (text : String)
    (block : Bytes) (tape : Tape) :
    surveyed config (text, config.headerOf charset block) tape =
      (.ok (recordWith text (config.headerOf charset block)
        ((config.layoutOf block).numberAt "data_sample_code" block) ⟨none, []⟩), tape) := by
  rw [surveyed_eq htyped, hs]
  rfl

theorem surveyed_full (htyped : config.Typed) (hs : config.summarizes = true)
    (hc : Charset.named? config.charset = some charset) (ht : tape.Flowing)
    (hwalks : config.WalksOn tape) (text : String) (block : Bytes) :
    ∃ found left, surveyed config (text, config.headerOf charset block) tape =
      (.ok (recordWith text (config.headerOf charset block)
        ((config.layoutOf block).numberAt "data_sample_code" block) found), left) ∧ found.Fits := by
  obtain ⟨found, left, hsurvey, hfits⟩ := survey_ok (htyped.layoutOf block) htyped hc ht hwalks
    (SampleFormat.ofCode ((config.layoutOf block).numberAt "data_sample_code" block)) block
  refine ⟨found, left, ?_, hfits⟩
  rw [surveyed_eq htyped, hs]
  exact Reading.bind_of_ok _ hsurvey

theorem surveyed_ok (htyped : config.Typed) (hc : Charset.named? config.charset = some charset)
    (ht : tape.Flowing) (hwalks : config.summarizes = true → config.WalksOn tape) (text : String)
    (block : Bytes) :
    ∃ record left, surveyed config (text, config.headerOf charset block) tape =
      (.ok record, left) := by
  cases hs : config.summarizes with
  | false => exact ⟨_, tape, surveyed_bare htyped hs text block tape⟩
  | true =>
      obtain ⟨found, left, h, -⟩ := surveyed_full htyped hs hc ht (hwalks hs) text block
      exact ⟨_, left, h⟩

theorem extract_of_unknown (htyped : config.Typed) (hc : Charset.named? config.charset = none)
    (tape : Tape) : extract config tape = (.error (.charset config.charset), tape) := by
  rw [extract_eq, Reading.bind_of_error _ (headings_of_unknown htyped.check hc tape)]

section

variable (htyped : config.Typed) (hc : Charset.named? config.charset = some charset)
  (ht : tape.Flowing)

include htyped hc ht

theorem extract_of_refusal {failure : Failure} (hr : config.refusal? tape = some failure) :
    (extract config tape).1 = .error failure := by
  rw [extract_eq]
  unfold Config.refusal? at hr
  cases htext : Reading.refused? config.textHeaderSize tape with
  | some other =>
      rw [htext] at hr
      cases hr
      have hread := Reading.text_of_refused ht.limit hc htext
      rw [Reading.bind_of_error _ (headings_of_text_error htyped.check hc hread)]
  | none =>
      rw [htext] at hr
      dsimp only at hr
      split at hr
      · rename_i hle
        have hread := Reading.text_of_le ht htext hc hle
        have hheader := Reading.header_of_refused (ht.ahead config.textHeaderSize.toNat).limit
          (Decoder.make_of_named hc config.probe)
          (show Reading.refused? config.probe.readSize (tape.ahead _) = some failure from hr)
        rw [Reading.bind_of_error _ (headings_of_header_error htyped.check hc hread hheader)]
      · cases hr

variable (hr : config.refusal? tape = none)

include hr

theorem extract_of_lt (hl : tape.unread.length < config.headingsSize) :
    (extract config tape).1 = .error (Failure.header (config.cut tape)).told := by
  obtain ⟨htext, hblock⟩ := Config.refusal?_eq_none_iff.mp hr
  rw [extract_eq, Config.cut]
  by_cases hshort : tape.unread.length < config.textHeaderSize
  · rw [if_pos hshort, Reading.bind_of_error _ (headings_of_text_lt htyped.check hc ht htext hshort)]
  · have hle := Int.not_lt.mp hshort
    rw [if_neg hshort, Reading.bind_of_error _ (headings_of_block_lt htyped.check hc ht htext
      htyped.probe.code.readSize_pos (hblock hle) hle hl)]

theorem extract_of_headings (hwalks : config.summarizes = true → config.WalksOn tape)
    (hl : config.headingsSize ≤ tape.unread.length) :
    ∃ record, (extract config tape).1 = .ok record := by
  obtain ⟨htext, hblock⟩ := Config.refusal?_eq_none_iff.mp hr
  have hle : config.textHeaderSize ≤ tape.unread.length := by
    unfold Config.headingsSize at hl
    omega
  have hheadings := headings_of_le htyped.check hc ht htext htyped.probe.code.readSize_pos
    (hblock hle) hl
  obtain ⟨record, left, hrecord⟩ := surveyed_ok htyped hc (ht.ahead config.headingsSize)
    (fun hs => (hwalks hs).ahead _)
    (charset.decode (tape.unread.take config.textHeaderSize.toNat))
    (config.blockIn tape.unread)
  rw [extract_eq, Reading.bind_of_ok _ hheadings, hrecord]
  exact ⟨record, rfl⟩

omit hr in
theorem extract_eq_error_iff (hwalks : config.summarizes = true → config.WalksOn tape)
    {failure : Failure} :
    (extract config tape).1 = .error failure ↔ config.refusal? tape = some failure ∨
      config.refusal? tape = none ∧ tape.unread.length < config.headingsSize ∧
        failure = (Failure.header (config.cut tape)).told := by
  cases hr : config.refusal? tape with
  | some refusal =>
      rw [extract_of_refusal htyped hc ht hr]
      simp
  | none =>
      by_cases hl : tape.unread.length < config.headingsSize
      · rw [extract_of_lt htyped hc ht hr hl]
        simp [hl, eq_comm]
      · obtain ⟨record, h⟩ := extract_of_headings htyped hc ht hr hwalks (Nat.le_of_not_lt hl)
        rw [h]
        simp [hl]

omit hr in
theorem extract_eq_ok_iff (hwalks : config.summarizes = true → config.WalksOn tape) :
    (∃ record, (extract config tape).1 = .ok record) ↔
      config.refusal? tape = none ∧ config.headingsSize ≤ tape.unread.length := by
  cases hr : config.refusal? tape with
  | some refusal =>
      rw [extract_of_refusal htyped hc ht hr]
      simp
  | none =>
      by_cases hl : tape.unread.length < config.headingsSize
      · rw [extract_of_lt htyped hc ht hr hl]
        simp [hl]
      · obtain ⟨record, h⟩ := extract_of_headings htyped hc ht hr hwalks (Nat.le_of_not_lt hl)
        rw [h]
        simp [Nat.le_of_not_lt hl]

end

/-- An extraction fails for an unknown character set, having read nothing. With a known one it fails
for a request of its headings that the tape refuses, or for too few bytes to hold them, with a
message where the size of the header that is cut can be written. Else it yields a record. -/
theorem extract_outcome (htyped : config.Typed) (ht : tape.Flowing)
    (hwalks : config.summarizes = true → config.WalksOn tape) :
    (Charset.named? config.charset = none →
        extract config tape = (.error (.charset config.charset), tape)) ∧
      (Charset.named? config.charset ≠ none → ∀ failure,
        (extract config tape).1 = .error failure ↔ config.refusal? tape = some failure ∨
          config.refusal? tape = none ∧ tape.unread.length < config.headingsSize ∧
            failure = (Failure.header (config.cut tape)).told) ∧
      ((∃ name, (extract config tape).1 = .error (.charset name)) ↔
        Charset.named? config.charset = none) ∧
      ((∃ cut, (extract config tape).1 = .error (.header cut)) ↔
        Charset.named? config.charset ≠ none ∧ config.refusal? tape = none ∧
          tape.unread.length < config.textHeaderSize.toNat + config.probe.readSize.toNat ∧
          Numeral.isPrintable (config.cut tape).expected.natAbs = true) ∧
      ((∃ record, (extract config tape).1 = .ok record) ↔
        Charset.named? config.charset ≠ none ∧ config.refusal? tape = none ∧
          config.textHeaderSize.toNat + config.probe.readSize.toNat ≤ tape.unread.length) := by
  cases hc : Charset.named? config.charset with
  | none =>
      have h := extract_of_unknown htyped hc tape
      rw [h]
      simp
  | some charset =>
      have herror : ∀ failure, (extract config tape).1 = .error failure ↔ _ := fun _ =>
        extract_eq_error_iff htyped hc ht hwalks
      have hok := extract_eq_ok_iff htyped hc ht hwalks
      refine ⟨nofun, fun _ => herror, ⟨?_, nofun⟩, ⟨?_, ?_⟩, ?_⟩
      · rintro ⟨name, hname⟩
        obtain hrefused | ⟨-, -, htold⟩ := (herror _).mp hname
        · obtain h | ⟨size, h⟩ := Config.kind_of_refusal hrefused <;> cases h
        · rw [Failure.told_header] at htold
          split at htold <;> cases htold
      · rintro ⟨cut, hcut⟩
        obtain hrefused | ⟨hr, hl, htold⟩ := (herror _).mp hcut
        · obtain h | ⟨size, h⟩ := Config.kind_of_refusal hrefused <;> cases h
        · refine ⟨nofun, hr, hl, ?_⟩
          rw [Failure.told_header] at htold
          split at htold
          · assumption
          · cases htold
      · rintro ⟨-, hr, hl, hp⟩
        exact ⟨config.cut tape, (herror _).mpr (.inr ⟨hr, hl, (if_pos hp).symm⟩)⟩
      · rw [hok]
        exact (and_iff_right nofun).symm

def openEnded : Bytes :=
  List.replicate 24 0 ++ [0, 8] ++ List.replicate 274 0 ++ [1, 0, 0, 1, 255, 255] ++
    List.replicate 94 0

def summarizing : Config where
  charset := "ascii"
  textHeaderSize := 1
  summarizes := true

theorem typed_summarizing : summarizing.Typed :=
  ⟨(fun _ h => by cases h), ⟨_, rfl, rfl⟩, (fun _ h => by cases h)⟩

theorem extract_outcome_openEnded :
    summarizing.Typed ∧ (Tape.ofFile (0x41 :: openEnded)).Flowing ∧
      summarizing.WalksOn (Tape.ofFile (0x41 :: openEnded)) ∧
      (∃ record, (extract summarizing (Tape.ofFile (0x41 :: openEnded))).1 = .ok record) ∧
      ∃ cut, (extract summarizing (Tape.ofFile openEnded)).1 = .error (.header cut) := by
  have hflowing : ∀ content, (Tape.ofFile content).Flowing :=
    fun content => ⟨rfl, fun h => by cases h⟩
  have hwalks : ∀ content, summarizing.WalksOn (Tape.ofFile content) :=
    fun content => ⟨rfl, by decide +kernel⟩
  have hgranted : ∀ content, summarizing.refusal? (Tape.ofFile content) = none :=
    fun content => Config.refusal?_eq_none_iff.mpr ⟨rfl, fun _ => rfl⟩
  have hc : Charset.named? summarizing.charset = some .usAscii := by decide +kernel
  have hne : Charset.named? summarizing.charset ≠ none := by
    rw [hc]
    exact fun h => by cases h
  obtain ⟨-, -, -, -, hrecord⟩ := extract_outcome typed_summarizing
    (hflowing (0x41 :: openEnded)) fun _ => hwalks (0x41 :: openEnded)
  obtain ⟨-, -, -, hcut, -⟩ := extract_outcome typed_summarizing (hflowing openEnded)
    fun _ => hwalks openEnded
  exact ⟨typed_summarizing, hflowing _, hwalks _,
    hrecord.mpr ⟨hne, hgranted _, by decide +kernel⟩,
    hcut.mpr ⟨hne, hgranted _, by decide +kernel, by decide +kernel⟩⟩

def fourBytes : Layout :=
  ⟨"b", [int16 "data_sample_code" 0 sampleCode_ne_empty,
    int16 "samples_per_trace" 2 samplesPerTrace_ne_empty], none, by decide, by decide⟩

def oversizedBlock : Layout :=
  ⟨"b", fourBytes.fields, some (1 <<< 63), by decide, by decide⟩

def oversized : Config where
  charset := "ascii"
  textHeaderSize := 1
  binaryLayout := some oversizedBlock

/-- A textual header of `10 ^ 4300` bytes, the least number with too many digits. -/
def untoldText : Config where
  charset := "ascii"
  textHeaderSize := Nat.pow 10 Numeral.digitLimit

/-- A trace header of the same size. -/
def untoldHeader : Layout :=
  ⟨"t", [uint16 "number_of_samples" 0 numberOfSamples_ne_empty],
    some (Nat.pow 10 Numeral.digitLimit), nodup_numberOfSamples, by decide +kernel⟩

def untold : Config where
  charset := "ascii"
  textHeaderSize := 0
  binaryLayout := some fourBytes
  traceLayout := untoldHeader
  summarizes := true

theorem steers_fourBytes : Steers fourBytes :=
  ⟨⟨_, rfl, rfl⟩, ⟨_, rfl, rfl⟩, fun h => absurd h (by decide), fun h => absurd h (by decide)⟩

theorem steers_oversizedBlock : Steers oversizedBlock :=
  ⟨⟨_, rfl, rfl⟩, ⟨_, rfl, rfl⟩, fun h => absurd h (by decide), fun h => absurd h (by decide)⟩

theorem typed_oversized : oversized.Typed where
  binary layout h := by
    cases h
    exact steers_oversizedBlock
  traces := ⟨_, rfl, rfl⟩
  cap cap h := by cases h

theorem typed_untold : untold.Typed where
  binary layout h := by
    cases h
    exact steers_fourBytes
  traces := ⟨_, rfl, rfl⟩
  cap cap h := by cases h

theorem typed_untoldText : untoldText.Typed := ⟨nofun, ⟨_, rfl, rfl⟩, nofun⟩

/-- A code of one-byte samples, a count of zero, and one byte of a trace. -/
def oneByteOfTrace : Tape := .ofBytes [0, 8, 0, 0, 0] none []

theorem extract_untold : (extract untold oneByteOfTrace).1 = .error .unprintable := by
  have h : Failure.integerFault? (extract untold oneByteOfTrace).1 =
      some (.numeral .unprintable) := by decide +kernel
  exact Failure.eq_of_integerFault? h

theorem extract_untoldText : (extract untoldText oneByteOfTrace).1 = .error .unprintable := by
  have hc : Charset.named? untoldText.charset = some .usAscii := by decide +kernel
  have hsteady : oneByteOfTrace.Steady := Tape.steady_ofBytes _ nofun
  have hgranted : untoldText.refusal? oneByteOfTrace = none :=
    Config.refusal?_eq_none_iff.mpr ⟨hsteady.grants _, fun _ => hsteady.grants _⟩
  have hshort : (oneByteOfTrace.unread.length : Int) < untoldText.textHeaderSize := by
    decide +kernel
  have htold : (Failure.header (untoldText.cut oneByteOfTrace)).told = .unprintable := by
    rw [Config.cut, if_pos hshort]
    exact if_neg (by decide +kernel)
  rw [← htold]
  exact extract_of_lt typed_untoldText hc hsteady.flowing hgranted (by decide +kernel)

/-- Three failures of neither kind: a file does not hand out `2 ^ 63` bytes at once, and the size of
a textual header that is cut, or of a trace header, cannot be written. -/
theorem extract_outcome_of_sizes :
    (oversized.Typed ∧ Charset.named? oversized.charset = some .usAscii ∧
        (Tape.ofFile (0x54 :: List.replicate 250 0)).Flowing ∧
        (Tape.ofFile (0x54 :: List.replicate 250 0)).unread.length < oversized.headingsSize ∧
        (extract oversized (Tape.ofFile (0x54 :: List.replicate 250 0))).1 =
          .error (.request (1 <<< 63))) ∧
      (untoldText.Typed ∧ Charset.named? untoldText.charset = some .usAscii ∧
        oneByteOfTrace.Flowing ∧ oneByteOfTrace.unread.length < untoldText.headingsSize ∧
        (extract untoldText oneByteOfTrace).1 = .error .unprintable) ∧
      untold.Typed ∧ Charset.named? untold.charset = some .usAscii ∧ oneByteOfTrace.Flowing ∧
        untold.headingsSize ≤ oneByteOfTrace.unread.length ∧
        (extract untold oneByteOfTrace).1 = .error .unprintable := by
  have hstream : oneByteOfTrace.Flowing := ⟨rfl, nofun⟩
  refine ⟨⟨typed_oversized, by decide +kernel, ⟨rfl, nofun⟩, by decide +kernel, ?_⟩,
    ⟨typed_untoldText, by decide +kernel, hstream, by decide +kernel, extract_untoldText⟩,
    typed_untold, by decide +kernel, hstream, by decide +kernel, extract_untold⟩
  with_unfolding_all rfl

end Segy

end SeisLog
