import SeisLog.Proofs.Segy.Extract
import SeisLog.Proofs.Segy.Region

/-!
# Volumes

A volume is a whole SEG-Y stream in its parts. Its extraction tells all of its records, and the
extraction of a prefix tells those that end in it: it fails where one of the first two headers is
cut, and otherwise costs the record a warning at most (`extract_take`).
-/

namespace SeisLog.Segy

structure Volume where
  text : Bytes
  binary : Bytes
  extended : Bytes
  records : List RawTrace

namespace Volume

def bytes (volume : Volume) : Bytes :=
  volume.text ++ (volume.binary ++ (volume.extended ++ RawTrace.region volume.records))

def headersEnd (volume : Volume) : Nat := volume.text.length + 400

def regionStart (volume : Volume) : Nat := volume.headersEnd + volume.extended.length

/-- What the content of a record says before the description of the traces. -/
def heading (volume : Volume) (charset : Charset) : String :=
  (sampleFormat volume.binary).label ++ " " ++ charset.decode volume.text ++ " "

def fields (volume : Volume) : Fields Value :=
  (headerOf volume.binary).values.set "data_sample_format"
    (.text (sampleFormat volume.binary).label)

/-- The parts are as long as the binary header and the header of each record say. -/
structure WellFormed (volume : Volume) (textSize : Int) : Prop where
  text : textSize = volume.text.length
  binary : volume.binary.length = 400
  code : sampleCode volume.binary ∈ [1, 2, 3, 5, 8]
  count : 0 ≤ extendedCount volume.binary
  extended : (volume.extended.length : Int) = 3200 * extendedCount volume.binary
  blocks : ∀ raw ∈ volume.records, raw.block.length = 240
  samples : ∀ raw ∈ volume.records,
    raw.samples.length = sampleCount volume.binary raw.block * sampleWidth volume.binary

variable {volume : Volume} {textSize : Int} {k : Nat}

theorem length_bytes (h : volume.WellFormed textSize) :
    volume.bytes.length = volume.regionStart + RawTrace.extent volume.records := by
  simp only [bytes, regionStart, headersEnd, List.length_append, h.binary, RawTrace.extent]
  omega

theorem take_text (hk : volume.text.length ≤ k) :
    (volume.bytes.take k).take volume.text.length = volume.text := by
  rw [List.take_take, Nat.min_eq_left hk, bytes, List.take_left]

theorem take_binary (h : volume.WellFormed textSize) (hk : volume.headersEnd ≤ k) :
    ((volume.bytes.take k).drop volume.text.length).take 400 = volume.binary := by
  have hl : 400 ≤ k - volume.text.length := by
    unfold headersEnd at hk
    omega
  rw [List.drop_take, bytes, List.drop_left, List.take_take, Nat.min_eq_left hl, ← h.binary,
    List.take_left]

theorem drop_headers (h : volume.WellFormed textSize) (k : Nat) :
    (volume.bytes.take k).drop volume.headersEnd =
      (volume.extended ++ RawTrace.region volume.records).take (k - volume.headersEnd) := by
  rw [List.drop_take, headersEnd, ← h.binary, ← List.drop_drop, bytes, List.drop_left,
    List.drop_left]

theorem exists_coding (h : volume.WellFormed textSize) :
    ∃ coding, (sampleFormat volume.binary).coding? = some coding := by
  have hc := h.code
  simp only [List.mem_cons, List.not_mem_nil, or_false] at hc
  unfold sampleFormat
  rcases hc with hc | hc | hc | hc | hc
  all_goals
    rw [hc]
    exact ⟨_, rfl⟩

theorem holds_of_mem (h : volume.WellFormed textSize) {coding : SampleCoding}
    (hc : (sampleFormat volume.binary).coding? = some coding) :
    ∀ raw ∈ volume.records, (regionFrame volume.binary coding).Holds raw := by
  intro raw hr
  have hs := h.samples raw hr
  rw [sampleWidth, SampleFormat.width?_eq_of_coding? hc] at hs
  exact ⟨h.blocks raw hr, hs⟩

/-- The summary of a volume that was cut after `passed` bytes of its extended headers. -/
def cutSummary (volume : Volume) (passed : Nat) : Summary where
  count := 0
  least := none
  greatest := none
  isComplete := false
  error := some
    s!"stream ended inside extended textual headers ({passed} of {volume.extended.length} bytes)"
  consumed := 0

/-- A summary of the first `k` bytes of a volume. -/
structure Tells (volume : Volume) (k : Nat) (summary : Summary) : Prop where
  unreached : k < volume.regionStart → summary = volume.cutSummary (k - volume.headersEnd)
  reached : volume.regionStart ≤ k → ∃ coding kept,
    (sampleFormat volume.binary).coding? = some coding ∧
      Covers coding summary volume.records kept (k - volume.regionStart)

variable {config : Config} {tape : Tape}

theorem survey_take (h : volume.WellFormed textSize) (htrace : config.traceLayout = traceHeader)
    (hcap : config.cap = none) (ht : tape.Flowing) (ho : tape.isOpen = true)
    (hstart : volume.headersEnd ≤ k) (hk : k ≤ volume.bytes.length)
    (hu : tape.unread =
      (volume.extended ++ RawTrace.region volume.records).take (k - volume.headersEnd)) :
    ∃ summary left,
      survey config (headerOf volume.binary) (sampleFormat volume.binary) tape =
        (.ok (.ofSummary summary), left) ∧ left.unread = [] ∧ volume.Tells k summary := by
  obtain ⟨coding, hc⟩ := exists_coding h
  have hbytes := length_bytes h
  have hneeded : extendedCount volume.binary * extendedHeaderSize = volume.extended.length := by
    rw [h.extended, Int.mul_comm]
    rfl
  have hlength : tape.unread.length = k - volume.headersEnd := by
    rw [hu, List.length_take, List.length_append]
    have : (RawTrace.region volume.records).length = RawTrace.extent volume.records := rfl
    unfold regionStart at hbytes
    omega
  have hsurvey := survey_eq config hc h.count ht ho
  simp only [hneeded, hlength, Int.toNat_natCast] at hsurvey
  by_cases hr : k < volume.regionStart
  · unfold regionStart at hr
    have hmin : min volume.extended.length (k - volume.headersEnd) = k - volume.headersEnd := by
      omega
    have hlt : ((k - volume.headersEnd : Nat) : Int) < volume.extended.length := by omega
    rw [hmin, if_pos hlt] at hsurvey
    refine ⟨volume.cutSummary (k - volume.headersEnd), _, hsurvey, ?_, ?_⟩
    · rw [Tape.unread_ahead]
      exact List.drop_eq_nil_of_le (by omega)
    · exact ⟨fun _ => rfl, fun hle => by unfold regionStart at hle; omega⟩
  · unfold regionStart at hr
    have hmin : min volume.extended.length (k - volume.headersEnd) = volume.extended.length := by
      omega
    have hrest : (tape.ahead volume.extended.length).unread =
        (RawTrace.region volume.records).take (k - volume.regionStart) := by
      rw [Tape.unread_ahead, hu, List.drop_take, List.drop_left, Nat.sub_sub, regionStart]
    rw [hmin, if_neg (Int.lt_irrefl _)] at hsurvey
    obtain ⟨kept, summary, left, hwalk, hleft, hcovers⟩ :=
      walkRegion_of_take hc htrace hcap (holds_of_mem h hc) (by omega) (ht.ahead _) ho hrest
    refine ⟨summary, left, hsurvey.trans hwalk, hleft, ?_⟩
    exact ⟨fun hlt => by unfold regionStart at hlt; omega, fun _ => ⟨coding, kept, hc, hcovers⟩⟩

/-- A prefix that holds both headers is extracted, with one warning if it was cut. -/
theorem extract_of_headersEnd_le {charset : Charset}
    (hcharset : Charset.named? config.charset = some charset) (hbinary : config.binaryLayout = none)
    (htrace : config.traceLayout = traceHeader) (hcap : config.cap = none)
    (hsummarizes : config.summarizes = true) (h : volume.WellFormed config.textHeaderSize)
    (ht : tape.Flowing) (htext : tape.Grants config.textHeaderSize) (ho : tape.isOpen = true)
    (hstart : volume.headersEnd ≤ k) (hk : k ≤ volume.bytes.length)
    (hu : tape.unread = volume.bytes.take k) :
    ∃ record summary left, extract config tape = (.ok record, left) ∧ left.unread = [] ∧
      record.content = volume.heading charset ++ summary.describe ∧
      record.fields = volume.fields ∧ record.summary = some summary ∧
      record.warnings = (if summary.isComplete then []
        else ["file is incomplete: " ++ summary.error.getD "None"]) ∧
      volume.Tells k summary := by
  have hsize : config.textHeaderSize.toNat = volume.text.length := by
    rw [h.text, Int.toNat_natCast]
  have hl : config.textHeaderSize.toNat + 400 ≤ tape.unread.length := by
    rw [hsize, hu, List.length_take, Nat.min_eq_left hk]
    exact hstart
  have hbytes : (tape.unread.drop config.textHeaderSize.toNat).take 400 = volume.binary := by
    rw [hsize, hu, take_binary h hstart]
  have hrest : (tape.ahead (config.textHeaderSize.toNat + 400)).unread =
      (volume.extended ++ RawTrace.region volume.records).take (k - volume.headersEnd) := by
    rw [hsize, Tape.unread_ahead, hu]
    exact drop_headers h k
  obtain ⟨summary, left, hsurvey, hleft, htells⟩ :=
    survey_take h htrace hcap (ht.ahead _) ho hstart hk hrest
  have hextract := extract_of_le hcharset hbinary ht htext ho hsummarizes hl hbytes hsurvey
  have htext : tape.unread.take config.textHeaderSize.toNat = volume.text := by
    rw [hsize, hu, take_text (by unfold headersEnd at hstart; omega)]
  rw [htext] at hextract
  have hknown : sampleFormat volume.binary ≠ .unknown := by
    obtain ⟨coding, hc⟩ := exists_coding h
    intro hn
    rw [hn] at hc
    cases hc
  refine ⟨_, summary, left, hextract, hleft, rfl, rfl, rfl, ?_, htells⟩
  rw [recordOf]
  dsimp only
  rw [if_neg hknown]
  rfl

/-- The whole volume is extracted without a warning and with all its records. A prefix fails with
the cut of the textual or the binary header, or it is extracted with the records that end in it. -/
theorem extract_take {charset : Charset}
    (hcharset : Charset.named? config.charset = some charset) (hbinary : config.binaryLayout = none)
    (htrace : config.traceLayout = traceHeader) (hcap : config.cap = none)
    (hsummarizes : config.summarizes = true) (h : volume.WellFormed config.textHeaderSize) :
    (∀ tape : Tape, tape.Flowing → tape.isOpen = true → tape.Grants config.textHeaderSize →
      tape.unread = volume.bytes →
      ∃ record summary left, extract config tape = (.ok record, left) ∧ left.unread = [] ∧
        record.warnings = [] ∧ record.content = volume.heading charset ++ summary.describe ∧
        record.fields = volume.fields ∧ record.summary = some summary ∧
        summary.isComplete = true ∧ summary.count = volume.records.length ∧
        summary.consumed = (RawTrace.region volume.records).length) ∧
    ∀ (k : Nat) (tape : Tape), k ≤ volume.bytes.length → tape.Flowing → tape.isOpen = true →
      tape.Grants config.textHeaderSize → tape.unread = volume.bytes.take k →
      (k < volume.text.length → (extract config tape).1 =
        .error (Failure.header ⟨.textBlock, volume.text.length, k⟩).told) ∧
      (volume.text.length ≤ k → k < volume.headersEnd → (extract config tape).1 =
        .error (.header ⟨.stream "segy_binary_header_rev1", 400, k - volume.text.length⟩)) ∧
      (volume.headersEnd ≤ k →
        ∃ record summary left, extract config tape = (.ok record, left) ∧ left.unread = [] ∧
          record.content = volume.heading charset ++ summary.describe ∧
          record.fields = volume.fields ∧ record.summary = some summary ∧
          record.warnings = (if summary.isComplete then []
            else ["file is incomplete: " ++ summary.error.getD "None"]) ∧
          volume.Tells k summary) := by
  have hsize : config.textHeaderSize.toNat = volume.text.length := by
    rw [h.text, Int.toNat_natCast]
  refine ⟨?_, ?_⟩
  · intro tape ht ho htext hu
    have hbytes := length_bytes h
    have hu : tape.unread = volume.bytes.take volume.bytes.length := by
      rw [hu, List.take_length]
    obtain ⟨record, summary, left, hextract, hleft, hcontent, hfields, hsummary, hwarnings,
        htells⟩ :=
      extract_of_headersEnd_le hcharset hbinary htrace hcap hsummarizes h ht htext ho
        (by unfold regionStart at hbytes; omega) (Nat.le_refl _) hu
    obtain ⟨coding, kept, -, hcovers⟩ := htells.reached (by omega)
    have hsize : volume.bytes.length - volume.regionStart = RawTrace.extent volume.records := by
      omega
    obtain ⟨hcount, hcomplete⟩ := hcovers.of_extent hsize
    refine ⟨record, summary, left, hextract, hleft, ?_, hcontent, hfields, hsummary, hcomplete,
      hcount, ?_⟩
    · rw [hwarnings, hcomplete, if_pos rfl]
    · rw [hcovers.consumed, hsize]
      rfl
  · intro k tape hk ht ho htext hu
    have hl : tape.unread.length = k := by
      rw [hu, List.length_take, Nat.min_eq_left hk]
    refine ⟨?_, ?_, ?_⟩
    · intro hlt
      have hshort : tape.unread.length < config.textHeaderSize := by
        rw [hl, h.text]
        omega
      rw [extract_of_text_lt hcharset hbinary ht htext hshort, hl, h.text]
    · intro hle hlt
      unfold headersEnd at hlt
      rw [extract_of_binary_lt hcharset hbinary ht htext ho (by rw [h.text]; omega) (by omega), hl,
        hsize]
    · intro hle
      exact extract_of_headersEnd_le hcharset hbinary htrace hcap hsummarizes h ht htext ho hle hk hu

/-- One letter of text, one extended header, and two records of one-byte samples: the first header
gives no count of its own, the second one says two. -/
def twoRecords : Volume where
  text := [0xE3]
  binary := List.replicate 20 0 ++ [0, 1, 0, 0, 0, 8] ++ List.replicate 274 0 ++
    [1, 0, 0, 0, 0, 1] ++ List.replicate 94 0
  extended := List.replicate 3200 0
  records := [⟨List.replicate 240 0, [5]⟩,
    ⟨List.replicate 114 0 ++ [0, 2] ++ List.replicate 124 0, [250, 7]⟩]

def oneLetter : Config where
  textHeaderSize := 1
  summarizes := true

theorem extract_take_twoRecords :
    (∃ (record : Record) (summary : Summary) (left : Tape),
      extract oneLetter (Tape.ofBytes twoRecords.bytes (some 7) []) = (.ok record, left) ∧
        record.warnings = [] ∧ record.content = "INTEGER_1_BYTE T " ++ summary.describe ∧
        summary.count = 2 ∧ summary.consumed = 483) ∧
      (extract oneLetter (Tape.ofBytes (twoRecords.bytes.take 11) (some 7) [])).1 =
        .error (.header ⟨.stream "segy_binary_header_rev1", 400, 10⟩) := by
  have hwell : twoRecords.WellFormed oneLetter.textHeaderSize :=
    ⟨by decide, by decide +kernel, by decide +kernel, by decide +kernel, by decide +kernel,
      by decide +kernel, by decide +kernel⟩
  have hcharset : Charset.named? oneLetter.charset = some .ibm1047 := by decide +kernel
  have hlimit : some 7 ≠ some 0 := by decide
  have hsteady : ∀ bytes : Bytes, (Tape.ofBytes bytes (some 7) []).Steady := fun bytes =>
    Tape.steady_ofBytes bytes hlimit
  have hunread : ∀ bytes : Bytes, (Tape.ofBytes bytes (some 7) []).unread = bytes := fun _ => rfl
  obtain ⟨hwhole, hprefix⟩ := extract_take hcharset rfl rfl rfl rfl hwell
  refine ⟨?_, ?_⟩
  · obtain ⟨record, summary, left, hextract, -, hwarnings, hcontent, -, -, -, hcount, hconsumed⟩ :=
      hwhole _ (hsteady _).flowing rfl ((hsteady _).grants _) (hunread _)
    have hheading : twoRecords.heading .ibm1047 = "INTEGER_1_BYTE T " := by decide +kernel
    have hregion : (RawTrace.region twoRecords.records).length = 483 := by decide +kernel
    rw [hheading] at hcontent
    rw [hregion] at hconsumed
    exact ⟨record, summary, left, hextract, hwarnings, hcontent, hcount, hconsumed⟩
  · have hlength : 11 ≤ twoRecords.bytes.length := by decide +kernel
    obtain ⟨-, hbinary, -⟩ := hprefix 11 _ hlength (hsteady _).flowing rfl ((hsteady _).grants _)
      (hunread _)
    exact hbinary (by decide) (by decide)

end Volume

end SeisLog.Segy
