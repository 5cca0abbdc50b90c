import SeisLog.Proofs.Region.Start

/-!
# Round trip of a trace region

Traces that are laid out one after another come back one for one and in order, with nothing left
over: each with its index, its decoded header and samples, and the number of bytes up to its end.
-/

namespace SeisLog

theorem SampleCoding.length_decode {coding : SampleCoding} {count : Nat} {block : Bytes}
    (h : block.length = count * coding.width) : (coding.decode block).length = count := by
  rw [decode, List.length_map, Bytes.length_groups coding.width_pos h]

namespace Walk

/-- Traces laid out under the counts that their own headers declare make up a row. -/
theorem row_of_region {layout : Layout} {options : Options} {coding : SampleCoding}
    {decoder : Decoder} {raws : List RawTrace} (hdecoder : decoder.layout = layout)
    (hsize : 0 < layout.readSize)
    (hblock : ∀ raw ∈ raws, (raw.block.length : Int) = layout.readSize)
    (hsamples : ∀ raw ∈ raws,
      raw.samples.length = coding.width * options.countAfter layout raw.block) :
    (options.frame coding decoder).Row (RawTrace.region raws) raws [] where
  eq := by simp
  holds raw hr := by
    have hb := hblock raw hr
    have hs := hsamples raw hr
    subst hdecoder
    constructor
    · show raw.block.length = decoder.layout.readSize.toNat
      omega
    · show raw.samples.length = options.countAfter decoder.layout raw.block * coding.width
      rw [hs, Nat.mul_comm]
  short := by
    have : 0 < (options.frame coding decoder).blockSize := by
      show 0 < decoder.layout.readSize.toNat
      rw [hdecoder]
      omega
    exact Nat.lt_of_lt_of_le this (Nat.le_add_right _ _)

/-- The walk over a region of whole traces, up to and with the call that yields nothing. -/
theorem walk_of_region {layout : Layout} {options : Options} {walk : Walk} {coding : SampleCoding}
    {raws : List RawTrace} {tape : Tape} (hstart : start layout options = .ok walk)
    (hformat : options.format.coding? = some coding) (hcap : options.cap = none)
    (hsize : 0 < layout.readSize) (hcount : options.CountsIntegers layout)
    (hblock : ∀ raw ∈ raws, (raw.block.length : Int) = layout.readSize)
    (hsamples : ∀ raw ∈ raws,
      raw.samples.length = coding.width * options.countAfter layout raw.block)
    (htape : (options.frame coding walk.decoder).ServedBy tape)
    (hunread : tape.unread = RawTrace.region raws) :
    ∃ (traces : List Trace) (after : Walk) (left : Tape),
      callsInto [] (raws.length + 1) walk tape = (traces.map some ++ [none], none, after, left) ∧
      walk.run none tape = ⟨traces, none, after, left⟩ ∧
      traces.length = raws.length ∧
      (∀ (i : Nat) (raw : RawTrace), raws[i]? = some raw →
        ∃ header, layout.decode options.charset raw.block = .ok header ∧
          (coding.decode raw.samples).length = options.countAfter layout raw.block ∧
          traces[i]? = some ⟨i, header, coding.decode raw.samples,
            (RawTrace.extent (raws.take (i + 1)) : Nat)⟩) ∧
      after.phase = .exhausted ∧ after.error = none ∧ after.traces = raws.length ∧
      after.consumed = (RawTrace.region raws).length ∧
      left.unread = [] ∧ left.position = tape.position + (RawTrace.region raws).length := by
  obtain ⟨decoder, hdecoder, rfl, rfl, hf⟩ := follows_of_start hstart hformat hcap hsize hcount
  let frame := options.frame coding decoder
  have hrow : frame.Row tape.unread raws [] := by
    rw [hunread]
    exact row_of_region rfl hsize hblock hsamples
  have hcalls := hf.callsInto_of_region rfl htape hrow.holds hrow.eq 1
  have hrun := hf.run_of_row_nil rfl htape hrow
  have hend : (tape.ahead (RawTrace.extent raws)).unread = [] := by
    rw [Tape.unread_ahead, hunread, RawTrace.extent, List.drop_length]
  have hlast := (hf.past raws).next_of_nil (isOver_past rfl raws)
    (htape.ahead hrow.holds hrow.eq) hend
  refine ⟨frame.traces 0 0 raws, ((options.fresh coding decoder).past raws).finish,
    tape.ahead (RawTrace.extent raws), ?_, ?_, ?_, ?_, rfl, rfl, ?_, ?_, hend, ?_⟩
  · rw [hcalls, callsInto_of_ok hlast]
    rfl
  · rw [hrun, hunread]
    rfl
  · exact Frame.length_traces _ _ _ _
  · intro i raw hi
    have hraw := hrow.holds raw (List.mem_of_getElem? hi)
    refine ⟨decoder.header raw.block, ?_, ?_, ?_⟩
    · rw [Layout.decode, hdecoder]
      exact Decoder.decode_eq_header hraw.block
    · exact SampleCoding.length_decode hraw.samples
    · rw [Frame.getElem?_traces, hi, Nat.zero_add, Nat.zero_add]
      rfl
  · exact Nat.zero_add _
  · exact Nat.zero_add _
  · rw [Tape.position_ahead, hunread, RawTrace.extent, Nat.min_self]

/-- Blocks of five bytes: a count, two characters and a byte that no field covers. -/
def countAndText : Layout where
  name := "count_and_text"
  fields := [⟨"count", ⟨0, 2, by decide⟩, .int16, by decide, by decide⟩,
    ⟨"text", ⟨2, 4, by decide⟩, .text, by decide, by decide⟩]
  blockSize := some 5
  names_nodup := by decide
  stop_le_blockSize := by decide

def textOptions : Options where
  format := .integer2
  countField := "count"
  charset := some "us_ascii"

def textWalk : Walk := textOptions.fresh .int16 ⟨countAndText, .usAscii⟩

/-- A negative count stands for no samples. -/
def oneSampleThenNone : List RawTrace :=
  [⟨[0, 1, 65, 66, 0], [255, 7]⟩, ⟨[255, 255, 65, 200, 9], []⟩]

theorem walk_of_region_one_then_none :
    ∃ (traces : List Trace) (after : Walk) (left : Tape),
      callsInto [] 3 textWalk (.ofBytes (RawTrace.region oneSampleThenNone) (some 1) []) =
        (traces.map some ++ [none], none, after, left) ∧
      traces.length = 2 ∧ after.phase = .exhausted ∧ left.position = 12 := by
  obtain ⟨traces, after, left, hcalls, -, hlength, -, hphase, -, -, -, -, hposition⟩ :=
    walk_of_region (show start countAndText textOptions = .ok textWalk by rfl)
      (show textOptions.format.coding? = some .int16 by rfl) rfl (by decide)
      (fun _ => ⟨_, rfl, rfl⟩) (show ∀ raw ∈ oneSampleThenNone, _ by decide) (by decide)
      (.of_steady (Tape.steady_ofBytes _ (show some 1 ≠ some 0 by decide)) _) rfl
  exact ⟨traces, after, left, hcalls, hlength, hphase, hposition⟩

end Walk

end SeisLog
