import SeisLog.Proofs.Segy.Binary

/-!
# Headings

The headings of a SEG-Y stream are its textual and its binary header. An extraction reads them, and
then it surveys what lies behind them (`extract_eq`). On a flowing tape that grants them they come
whole, or the first one that is too short fails with the bytes that were left.
-/

namespace SeisLog.Segy

/-- The record of a textual header, a binary header with its sample code, and a survey. -/
def recordWith (text : String) (header : Header) (code : Int) (survey : Survey) : Record where
  mediaType := mediaType
  dcmiType := dcmiType
  content := (SampleFormat.ofCode code).label ++ " " ++ text ++ " " ++
    (survey.summary.map Summary.describe).getD ""
  fields := header.values.set "data_sample_format" (.text (SampleFormat.ofCode code).label)
  summary := survey.summary
  warnings :=
    let shown := ((header.get? "data_sample_code").map Value.plain).getD ""
    (if SampleFormat.ofCode code = .unknown then ["unknown data sample code " ++ shown] else []) ++
      survey.warnings

def headings (config : Config) : Reading Tape (String × Header) := do
  Reading.ofExcept config.check
  let _ ← Reading.ofExcept (Charset.require config.charset)
  let text ← Reading.text config.charset (some config.textHeaderSize)
  let header ← binaryHeader config
  return (text, header)

def surveyed (config : Config) (found : String × Header) : Reading Tape Record := do
  let code ← Reading.ofExcept (integerAt found.2 "data_sample_code")
  let survey ←
    if config.summarizes then survey config found.2 (SampleFormat.ofCode code)
    else pure ⟨none, []⟩
  return recordWith found.1 found.2 code survey

theorem extract_eq (config : Config) : extract config = headings config >>= surveyed config := by
  simp only [extract, headings, surveyed, recordWith, bind_assoc, pure_bind]

namespace Config

def headingsSize (config : Config) : Nat :=
  config.textHeaderSize.toNat + config.probe.readSize.toNat

def blockIn (config : Config) (bytes : Bytes) : Bytes :=
  (bytes.drop config.textHeaderSize.toNat).take config.probe.readSize.toNat

end Config

variable {config : Config} {charset : Charset} {tape : Tape}

theorem check_of_none (hb : config.binaryLayout = none) : config.check = .ok () := by
  rw [Config.check, hb]

theorem probe_of_none (hb : config.binaryLayout = none) : config.probe = binaryRev1 := by
  rw [Config.probe, hb]
  rfl

theorem headingsSize_of_none (hb : config.binaryLayout = none) :
    config.headingsSize = config.textHeaderSize.toNat + 400 := by
  rw [Config.headingsSize, probe_of_none hb]
  rfl

theorem readSize_probe_of_none (hb : config.binaryLayout = none) : config.probe.readSize = 400 := by
  rw [probe_of_none hb]
  rfl

theorem headings_of_unknown (hcheck : config.check = .ok ())
    (hc : Charset.named? config.charset = none) (tape : Tape) :
    headings config tape = (.error (.charset config.charset), tape) := by
  have hr : Reading.ofExcept (Charset.require config.charset) tape =
      (.error (.charset config.charset), tape) := by
    rw [Charset.require, hc]
    rfl
  rw [headings, Reading.bind_of_ok _ (Reading.ofExcept_of_eq hcheck tape),
    Reading.bind_of_error _ hr]

section

variable (hcheck : config.check = .ok ()) (hc : Charset.named? config.charset = some charset)

include hcheck hc

/-- Past the checks the textual header comes first. -/
theorem headings_eq (tape : Tape) :
    headings config tape =
      (do
        let text ← Reading.text config.charset (some config.textHeaderSize)
        let header ← binaryHeader config
        return (text, header) : Reading Tape (String × Header)) tape := by
  rw [headings, Reading.bind_of_ok _ (Reading.ofExcept_of_eq hcheck tape),
    Reading.bind_of_ok _ (Reading.require_of_named hc tape)]

theorem headings_of_text_error {failure : Failure} {after : Tape}
    (htext : Reading.text config.charset (some config.textHeaderSize) tape =
      (.error failure, after)) : headings config tape = (.error failure, after) := by
  rw [headings_eq hcheck hc, Reading.bind_of_error _ htext]

theorem headings_of_header_error {text : String} {failure : Failure} {middle after : Tape}
    (htext : Reading.text config.charset (some config.textHeaderSize) tape = (.ok text, middle))
    (hheader : Reading.header config.probe (some config.charset) middle =
      (.error failure, after)) : headings config tape = (.error failure, after) := by
  rw [headings_eq hcheck hc, Reading.bind_of_ok _ htext,
    Reading.bind_of_error _ (binaryHeader_of_error hheader)]

theorem headings_of_short {text : String} {middle after : Tape} {block : Bytes}
    (htext : Reading.text config.charset (some config.textHeaderSize) tape = (.ok text, middle))
    (htake : Reading.take config.probe.readSize middle = (.ok block, after))
    (hl : block.length < config.probe.readSize) :
    headings config tape = (.error (Failure.header
      ⟨.stream config.probe.name, config.probe.readSize, block.length⟩).told, after) := by
  have hheader := Reading.header_eq (Decoder.make_of_named hc config.probe) middle
  rw [htake] at hheader
  simp only [if_pos hl] at hheader
  exact headings_of_header_error hcheck hc htext hheader

theorem extract_of_short {text : String} {middle after : Tape} {block : Bytes}
    (htext : Reading.text config.charset (some config.textHeaderSize) tape = (.ok text, middle))
    (htake : Reading.take config.probe.readSize middle = (.ok block, after))
    (hl : block.length < config.probe.readSize) :
    extract config tape = (.error (Failure.header
      ⟨.stream config.probe.name, config.probe.readSize, block.length⟩).told, after) := by
  rw [extract_eq, Reading.bind_of_error _ (headings_of_short hcheck hc htext htake hl)]

theorem headings_of_reach (hs : 0 < config.probe.readSize) (hl : tape.limit ≠ some 0)
    (hr : config.headingsSize ≤ tape.reach) :
    headings config tape =
      match Reading.refused? config.textHeaderSize tape with
      | some failure => (.error failure, tape)
      | none =>
          match Reading.refused? config.probe.readSize tape with
          | some failure => (.error failure, tape.ahead config.textHeaderSize.toNat)
          | none =>
              (.ok (charset.decode (tape.unread.take config.textHeaderSize.toNat),
                config.headerOf charset (config.blockIn tape.unread)),
                tape.ahead config.headingsSize) := by
  unfold Config.headingsSize at hr
  let after := tape.ahead config.textHeaderSize.toNat
  have hreach : after.reach = tape.reach - config.textHeaderSize.toNat :=
    Tape.reach_ahead (by omega)
  have hsize : config.textHeaderSize.toNat ≤ tape.reach := by omega
  have htext := Reading.text_of_reach hl hc hsize
  have hheader := Reading.header_of_reach (show after.limit ≠ some 0 from hl)
    (Decoder.make_of_named hc config.probe) hs (by omega)
  rw [headings_eq hcheck hc]
  cases ht : Reading.refused? config.textHeaderSize tape with
  | some failure =>
      rw [ht] at htext
      exact Reading.bind_of_error _ htext
  | none =>
      rw [ht] at htext
      rw [Reading.bind_of_ok _ htext]
      cases hb : Reading.refused? config.probe.readSize tape with
      | some failure =>
          rw [show Reading.refused? config.probe.readSize after = some failure from hb] at hheader
          exact Reading.bind_of_error _ (binaryHeader_of_error hheader)
      | none =>
          rw [show Reading.refused? config.probe.readSize after = none from hb] at hheader
          rw [Reading.bind_of_ok _ (binaryHeader_of_ok hheader), Tape.ahead_ahead]
          rfl

omit hcheck in
theorem headings_of_none (hb : config.binaryLayout = none) (hl : tape.limit ≠ some 0)
    (hr : config.textHeaderSize.toNat + 400 ≤ tape.reach) :
    headings config tape =
      match Reading.refused? config.textHeaderSize tape with
      | some failure => (.error failure, tape)
      | none =>
          match Reading.refused? 400 tape with
          | some failure => (.error failure, tape.ahead config.textHeaderSize.toNat)
          | none =>
              (.ok (charset.decode (tape.unread.take config.textHeaderSize.toNat),
                headerOf ((tape.unread.drop config.textHeaderSize.toNat).take 400)),
                tape.ahead (config.textHeaderSize.toNat + 400)) := by
  have hsize := readSize_probe_of_none hb
  have hread := headings_of_reach (check_of_none hb) hc (by omega) hl
    (headingsSize_of_none hb ▸ hr)
  rwa [headingsSize_of_none hb, Config.headerOf_of_none hb, Config.blockIn, hsize] at hread

section

variable (ht : tape.Flowing) (htext : tape.Grants config.textHeaderSize)

include ht htext

theorem headings_of_text_lt (hl : tape.unread.length < config.textHeaderSize) :
    headings config tape =
      (.error (Failure.header ⟨.textBlock, config.textHeaderSize, tape.unread.length⟩).told,
        tape.ahead config.textHeaderSize.toNat) :=
  headings_of_text_error hcheck hc (Reading.text_of_lt ht htext hc hl)

variable (hs : 0 < config.probe.readSize) (hblock : tape.Grants config.probe.readSize)

include hs hblock

theorem headings_of_block_lt (hn : config.textHeaderSize ≤ tape.unread.length)
    (hl : tape.unread.length < config.headingsSize) :
    headings config tape =
      (.error (Failure.header ⟨.stream config.probe.name, config.probe.readSize,
        tape.unread.length - config.textHeaderSize.toNat⟩).told,
        tape.ahead config.headingsSize) := by
  unfold Config.headingsSize at hl
  have hrest : (tape.ahead config.textHeaderSize.toNat).unread.length =
      tape.unread.length - config.textHeaderSize.toNat := by
    rw [Tape.unread_ahead, List.length_drop]
  have hheader := Reading.header_of_lt (ht.ahead config.textHeaderSize.toNat) (hblock.ahead _)
    (Decoder.make_of_named hc config.probe) hs (by omega)
  rw [hrest, Tape.ahead_ahead] at hheader
  exact headings_of_header_error hcheck hc (Reading.text_of_le ht htext hc hn) hheader

theorem headings_of_le (hl : config.headingsSize ≤ tape.unread.length) :
    headings config tape =
      (.ok (charset.decode (tape.unread.take config.textHeaderSize.toNat),
        config.headerOf charset (config.blockIn tape.unread)), tape.ahead config.headingsSize) := by
  rw [headings_of_reach hcheck hc hs ht.limit (by rw [ht.reach]; exact hl), htext, hblock]

end

theorem grants_of_headings (ht : tape.Flowing) {found : String × Header} {after : Tape}
    (h : headings config tape = (.ok found, after)) :
    tape.Grants config.textHeaderSize ∧ tape.Grants config.probe.readSize := by
  rw [headings_eq hcheck hc] at h
  cases htext : Reading.text config.charset (some config.textHeaderSize) tape with
  | mk answer middle =>
      cases answer with
      | error failure =>
          rw [Reading.bind_of_error _ htext] at h
          cases h
      | ok text =>
          have hgrants := Reading.grants_of_text ht hc htext
          have hmiddle : middle = tape.ahead config.textHeaderSize.toNat := by
            by_cases hl : tape.unread.length < config.textHeaderSize
            · rw [Reading.text_of_lt ht hgrants hc hl] at htext
              cases htext
            · rw [Reading.text_of_le ht hgrants hc (by omega)] at htext
              exact (Prod.mk.inj htext).2.symm
          subst hmiddle
          rw [Reading.bind_of_ok _ htext] at h
          cases hheader : Reading.header config.probe (some config.charset)
              (tape.ahead config.textHeaderSize.toNat) with
          | mk answer last =>
              cases answer with
              | error failure =>
                  rw [Reading.bind_of_error _ (binaryHeader_of_error hheader)] at h
                  cases h
              | ok header =>
                  exact ⟨hgrants, Reading.grants_of_header (ht.ahead _)
                    (Decoder.make_of_named hc config.probe) hheader⟩

end

/-- Headings that were read are all there, and nothing else was read. -/
theorem headings_ok (hcheck : config.check = .ok ()) (hs : 0 < config.probe.readSize)
    (ht : tape.Flowing) {found : String × Header} {after : Tape}
    (h : headings config tape = (.ok found, after)) :
    ∃ charset, Charset.named? config.charset = some charset ∧
      config.headingsSize ≤ tape.unread.length ∧
      found = (charset.decode (tape.unread.take config.textHeaderSize.toNat),
        config.headerOf charset (config.blockIn tape.unread)) ∧
      after = tape.ahead config.headingsSize := by
  cases hc : Charset.named? config.charset with
  | none =>
      rw [headings_of_unknown hcheck hc] at h
      cases h
  | some charset =>
      obtain ⟨htext, hblock⟩ := grants_of_headings hcheck hc ht h
      by_cases hn : tape.unread.length < config.textHeaderSize
      · rw [headings_of_text_lt hcheck hc ht htext hn] at h
        cases h
      · by_cases hl : tape.unread.length < config.headingsSize
        · rw [headings_of_block_lt hcheck hc ht htext hs hblock (by omega) hl] at h
          cases h
        · have hle := Nat.le_of_not_lt hl
          rw [headings_of_le hcheck hc ht htext hs hblock hle] at h
          obtain ⟨hfound, hafter⟩ := Prod.mk.inj h
          exact ⟨charset, rfl, hle, (Except.ok.inj hfound).symm, hafter.symm⟩

end SeisLog.Segy
