import SeisLog.Proofs.Call
import SeisLog.Proofs.Region.Prefix
import SeisLog.Proofs.Region.RoundTrip

/-!
# Truncated regions

The walk over a prefix of a region yields the traces that end inside and then ends: cleanly where
the prefix ends with a trace, at a cut that tells the missing bytes otherwise. With the missing
bytes appended the walk gets past the cut.

A cut is told by a message with the size of the part that was cut. Where that size has too many
digits to be written, there is no cut to tell, and the walk is not marked as failed.
-/

namespace SeisLog

namespace Frame

variable {frame : Frame} {tail : Bytes}

/-- The bytes missing at a cut complete the trace, or its header block at least. -/
theorem Short.append_missing (hs : frame.Short tail) {index consumed : Nat} {extra : Bytes}
    (he : extra.length = (frame.cut index consumed tail).missing) :
    (∃ raw, frame.Holds raw ∧ tail ++ extra = raw.bytes) ∨
      tail.length < frame.blockSize ∧ (tail ++ extra).length = frame.blockSize ∧
        0 < frame.sampleSize (tail ++ extra) := by
  by_cases hl : tail.length < frame.blockSize
  · have hm : extra.length = frame.blockSize - tail.length := by
      rw [he, cut_of_lt hl]
      rfl
    have hb : (tail ++ extra).length = frame.blockSize := by
      rw [List.length_append]
      omega
    rcases Nat.eq_zero_or_pos (frame.sampleSize (tail ++ extra)) with hz | hp
    · exact .inl ⟨⟨tail ++ extra, []⟩, ⟨hb, hz.symm⟩, by simp [RawTrace.bytes]⟩
    · exact .inr ⟨hl, hb, hp⟩
  · have hl := Nat.le_of_not_lt hl
    refine .inl ⟨⟨tail.take frame.blockSize, tail.drop frame.blockSize ++ extra⟩, ⟨?_, ?_⟩, ?_⟩
    · rw [List.length_take, Nat.min_eq_left hl]
    · have hm : extra.length =
          frame.sampleSize (tail.take frame.blockSize) - (tail.length - frame.blockSize) := by
        rw [he, cut_of_le hl]
        rfl
      unfold Short at hs
      show (tail.drop frame.blockSize ++ extra).length =
        frame.sampleSize (tail.take frame.blockSize)
      rw [List.length_append, List.length_drop]
      omega
    · rw [RawTrace.bytes, ← List.append_assoc, List.take_append_drop]

end Frame

def Run.lastEnd (run : Run Tape) : Nat := ((run.traces.getLast?.map Trace.consumed).getD 0).toNat

namespace Walk

/-- The number of bytes of samples that the header block at an offset of a region declares. -/
def Options.declaredSize (options : Options) (layout : Layout) (coding : SampleCoding)
    (region : Bytes) (offset : Nat) : Nat :=
  coding.width *
    options.countAfter layout ((region.drop offset).take layout.readSize.toNat)

/-- The cut of a region after `k` bytes, where the last whole trace ends at `offset`: in the header
block that starts there, or in the samples that the block declares. -/
structure CutAt (options : Options) (layout : Layout) (coding : SampleCoding) (region : Bytes)
    (k offset : Nat) (cut : TraceCut) : Prop where
  consumed : cut.consumed = k
  missing_pos : 0 < cut.missing
  header : (k : Int) < offset + layout.readSize →
    cut.part = .header ∧ (cut.expected : Int) = layout.readSize ∧
      (cut.missing : Int) = offset + layout.readSize - k
  samples : offset + layout.readSize ≤ k →
    cut.part = .samples ∧ cut.expected = options.declaredSize layout coding region offset ∧
      (cut.missing : Int) = offset + layout.readSize + cut.expected - k

/-- What a run is like that ended at a cut: the cut is raised once and kept, unless the size of the
part that was cut cannot be written. -/
structure EndsAtCut (run : Run Tape) (cut : TraceCut) : Prop where
  told : Numeral.isPrintable cut.expected = true →
    run.failure? = some (.trace cut) ∧ run.walk.phase = .failed ∧ run.walk.error = some cut ∧
      ∀ tape : Tape, run.walk.next tape = ⟨.ok none, run.walk, tape⟩
  untold : Numeral.isPrintable cut.expected = false →
    run.failure? = some .unprintable ∧ run.walk.error = none ∧
      run.walk.phase = if run.traces.isEmpty then .ready else .active

/-- What a run is like that was given the bytes missing at a cut: it yields the trace that was cut,
or it ends at the samples of which nothing follows the completed header. -/
def GetsPast (run : Run Tape) (before : List Trace) (cut : TraceCut) : Prop :=
  run.walk.consumed = cut.consumed + cut.missing ∧
    ((∃ trace, run.traces = before ++ [trace] ∧ run.failure? = none) ∨
      cut.part = .header ∧ run.traces = before ∧ ∃ size, 0 < size ∧
        EndsAtCut run ⟨before.length, .samples, size, 0, cut.consumed + cut.missing⟩)

section

variable {frame : Frame} {walk : Walk} {tape : Tape} {raws : List RawTrace} {rest : Bytes}

theorem endsAtCut_of_stopped {run : Run Tape} {cut : TraceCut} (herror : walk.error = none)
    (hphase : walk.phase = if run.traces.isEmpty then .ready else .active)
    (hfailure : run.failure? = some (Failure.trace cut).told)
    (hwalk : run.walk = walk.stopped cut) : EndsAtCut run cut where
  told hp := by
    rw [stopped, if_pos hp] at hwalk
    rw [Failure.told_trace, if_pos hp] at hfailure
    rw [hwalk]
    exact ⟨hfailure, rfl, rfl, next_of_isOver rfl⟩
  untold hp := by
    rw [stopped, if_neg (by rw [hp]; exact Bool.false_ne_true)] at hwalk
    rw [Failure.told_trace, if_neg (by rw [hp]; exact Bool.false_ne_true)] at hfailure
    rw [hwalk]
    exact ⟨hfailure, herror, hphase⟩

theorem Follows.endsAtCut (hf : walk.Follows frame) (hphase : walk.phase = .ready)
    (herror : walk.error = none) (ht : frame.ServedBy tape)
    (hrow : frame.Row tape.unread raws rest) (hn : rest ≠ []) :
    EndsAtCut (walk.run none tape)
      (frame.cut (walk.traces + raws.length) (walk.consumed + RawTrace.extent raws) rest) := by
  have ho : walk.isOver = false := by
    rw [isOver, hphase]
    rfl
  have hrun := hf.run_of_row ho ht hrow hn
  dsimp only at hrun
  generalize frame.cut (walk.traces + raws.length) (walk.consumed + RawTrace.extent raws) rest = cut
    at hrun ⊢
  have hnone : ((walk.past raws).advance rest).error = none := herror
  have hlast : ((walk.past raws).advance rest).phase =
      if (walk.run none tape).traces.isEmpty then .ready else .active := by
    rw [hrun]
    cases raws with
    | nil => exact hphase
    | cons raw raws => rfl
  have hfailure : (walk.run none tape).failure? = some (Failure.trace cut).told := by
    rw [hrun]
  have hwalk : (walk.run none tape).walk = ((walk.past raws).advance rest).stopped cut := by
    rw [hrun]
  exact endsAtCut_of_stopped hnone hlast hfailure hwalk

/-- With the missing bytes appended a run gets past the cut. -/
theorem Follows.getsPast (hf : walk.Follows frame) (hphase : walk.phase = .ready)
    (herror : walk.error = none) (htraces : walk.traces = 0) (hconsumed : walk.consumed = 0)
    (ht : frame.ServedBy tape) {extra : Bytes} (hr : ∀ raw ∈ raws, frame.Holds raw)
    (hs : frame.Short rest) (he : extra.length = (frame.cut raws.length (RawTrace.extent raws) rest).missing)
    (hu : tape.unread = RawTrace.region raws ++ (rest ++ extra)) :
    GetsPast (walk.run none tape) (frame.traces 0 0 raws)
      (frame.cut raws.length (RawTrace.extent raws) rest) := by
  have ho : walk.isOver = false := by
    rw [isOver, hphase]
    rfl
  rcases hs.append_missing he with ⟨raw, hraw, hbytes⟩ | ⟨hl, hb, hp⟩
  · have hrow : frame.Row tape.unread (raws ++ [raw]) [] := by
      refine ⟨?_, ?_, ?_⟩
      · rw [hu, hbytes]
        simp [RawTrace.region]
      · intro other ho
        rcases List.mem_append.mp ho with ho | ho
        · exact hr other ho
        · rw [List.mem_singleton.mp ho]
          exact hraw
      · exact Nat.lt_of_lt_of_le hf.blockSize_pos (Nat.le_add_right _ _)
    rw [hf.run_of_row_nil ho ht hrow, htraces, hconsumed, Frame.traces_append]
    refine ⟨?_, .inl ⟨_, rfl, rfl⟩⟩
    have hl := congrArg List.length hbytes
    rw [List.length_append, he] at hl
    show walk.consumed + RawTrace.extent (raws ++ [raw]) = _
    rw [hconsumed, Frame.consumed_cut, RawTrace.extent_append, RawTrace.extent_cons, ← hl]
    simp only [RawTrace.extent_nil, Nat.zero_add, Nat.add_zero, Nat.add_assoc]
  · have hshort : frame.Short (rest ++ extra) := by
      rw [Frame.Short, List.take_of_length_le (Nat.le_of_eq hb)]
      omega
    have hn : rest ++ extra ≠ [] := by
      intro hn
      rw [hn] at hb
      have := hf.blockSize_pos
      simp only [List.length_nil] at hb
      omega
    have hrow : frame.Row tape.unread raws (rest ++ extra) := ⟨hu, hr, hshort⟩
    have hlater := hf.endsAtCut hphase herror ht hrow hn
    have hreach : RawTrace.extent raws + (rest ++ extra).length =
        RawTrace.extent raws + rest.length +
          (frame.cut raws.length (RawTrace.extent raws) rest).missing := by
      rw [← he, List.length_append, Nat.add_assoc]
    rw [htraces, hconsumed, Nat.zero_add, Nat.zero_add, Frame.cut_of_le (Nat.le_of_eq hb.symm),
      List.take_of_length_le (Nat.le_of_eq hb), hreach, hb, Nat.sub_self,
      ← Frame.consumed_cut frame raws.length] at hlater
    refine ⟨?_, .inr ⟨?_, ?_, _, hp, ?_⟩⟩
    · obtain ⟨-, -, hc, -⟩ := hf.run_row ho ht hrow
      rw [hc, hconsumed, Nat.zero_add, hu, Frame.consumed_cut, ← hreach, List.length_append,
        RawTrace.extent]
    · rw [Frame.cut_of_lt hl]
    · obtain ⟨htr, -⟩ := hf.run_row ho ht hrow
      rw [htr, htraces, hconsumed]
    · rw [Frame.length_traces]
      exact hlater

/-- A cut of the frame is the cut of the region. -/
theorem cutAt_cut {options : Options} {coding : SampleCoding} {decoder : Decoder} {region : Bytes}
    {k : Nat} (hk : k ≤ region.length) (hsize : 0 < decoder.layout.readSize)
    (hrow : (options.frame coding decoder).Row (region.take k) raws rest) (hn : rest ≠ []) :
    CutAt options decoder.layout coding region k (RawTrace.extent raws)
      ((options.frame coding decoder).cut raws.length (RawTrace.extent raws) rest) := by
  let frame := options.frame coding decoder
  have hb : (frame.blockSize : Int) = decoder.layout.readSize := by
    show ((decoder.layout.readSize.toNat : Nat) : Int) = _
    omega
  have hl := hrow.length_take hk
  have hr := List.length_pos_iff.mpr hn
  have hs : rest.length < frame.blockSize + frame.sampleSize (rest.take frame.blockSize) :=
    hrow.short
  refine ⟨?_, ?_, ?_, ?_⟩
  · rw [Frame.consumed_cut, hl]
  · exact hrow.short.missing_pos hn _ _
  · intro hc
    have hc : rest.length < frame.blockSize := by omega
    rw [Frame.cut_of_lt hc]
    refine ⟨rfl, hb, ?_⟩
    show ((frame.blockSize - rest.length : Nat) : Int) = _
    omega
  · intro hc
    have hc : frame.blockSize ≤ rest.length := by omega
    have hblock : rest.take frame.blockSize =
        (region.drop (RawTrace.extent raws)).take frame.blockSize := by
      have hd : (region.take k).drop (RawTrace.extent raws) = rest := by
        rw [hrow.eq, RawTrace.extent, List.drop_left]
      have hle : frame.blockSize ≤ k - RawTrace.extent raws := by omega
      rw [← hd, List.drop_take, List.take_take, Nat.min_eq_left hle]
    rw [Frame.cut_of_le hc]
    refine ⟨rfl, ?_, ?_⟩
    · rw [hblock, Options.declaredSize, Nat.mul_comm]
      rfl
    · show ((frame.sampleSize (rest.take frame.blockSize) - (rest.length - frame.blockSize) : Nat) :
        Int) = _ + _ + (frame.sampleSize (rest.take frame.blockSize) : Nat) - _
      omega

end

/-- The walk over the first `k` bytes of a region yields the traces that end within them, and ends
cleanly where the last of them does, at a cut otherwise. -/
theorem run_take {layout : Layout} {options : Options} {walk : Walk} {coding : SampleCoding}
    {region : Bytes} {whole : Tape} (hstart : start layout options = .ok walk)
    (hformat : options.format.coding? = some coding) (hcap : options.cap = none)
    (hsize : 0 < layout.readSize) (hcount : options.CountsIntegers layout)
    (hwhole : (options.frame coding walk.decoder).ServedBy whole)
    (hregion : whole.unread = region) {k : Nat} (hk : k ≤ region.length) {first : Tape}
    (hfirst : (options.frame coding walk.decoder).ServedBy first)
    (hunread : first.unread = region.take k) :
    let full := walk.run none whole
    let run := walk.run none first
    full.traces.Pairwise (·.consumed < ·.consumed) ∧
    run.traces = full.traces.filter (·.consumed ≤ (k : Int)) ∧
    run.walk.traces = run.traces.length ∧ run.walk.consumed = k ∧ run.tape.unread = [] ∧
    (k = 0 ∨ (∃ trace ∈ full.traces, trace.consumed = k) →
      run.failure? = none ∧ run.walk.phase = .exhausted) ∧
    (¬ (k = 0 ∨ ∃ trace ∈ full.traces, trace.consumed = k) →
      ∃ cut, CutAt options layout coding region k run.lastEnd cut ∧
        cut.index = run.traces.length ∧ EndsAtCut run cut ∧
        ∀ (extra : Bytes) (more : Tape), extra.length = cut.missing →
          (options.frame coding walk.decoder).ServedBy more →
          more.unread = region.take k ++ extra → GetsPast (walk.run none more) run.traces cut) := by
  obtain ⟨decoder, -, rfl, rfl, hf⟩ := follows_of_start hstart hformat hcap hsize hcount
  subst hregion
  let frame := options.frame coding decoder
  let walk := options.fresh coding decoder
  obtain ⟨raws, rest, hrow⟩ := Frame.exists_row hf.blockSize_pos whole.unread
  obtain ⟨kept, tail, htake, -, hfilter⟩ := hrow.exists_take hf.blockSize_pos k
  have hfilter : frame.traces 0 0 kept =
      (frame.traces 0 0 raws).filter (·.consumed ≤ (k : Int)) := by
    simpa only [Nat.zero_add] using hfilter 0 0
  have hfull : (walk.run none whole).traces = frame.traces 0 0 raws :=
    (hf.run_row rfl hwhole hrow).1
  have hkept : frame.Row first.unread kept tail := hunread ▸ htake
  obtain ⟨htraces, hnumber, hconsumed, hnothing⟩ := hf.run_row rfl hfirst hkept
  have htraces : (walk.run none first).traces = frame.traces 0 0 kept := htraces
  have hend := htake.eq_nil_iff hk hfilter
  have hlast : (walk.run none first).lastEnd = RawTrace.extent kept := by
    have := Frame.getLast?_consumed frame 0 0 kept
    rw [Run.lastEnd, htraces]
    simp only [Int.natCast_zero, Nat.zero_add] at this
    rw [this, Int.toNat_natCast]
  refine ⟨?_, ?_, ?_, ?_, hnothing, ?_, ?_⟩
  · rw [hfull]
    exact Frame.pairwise_consumed hf.blockSize_pos hrow.holds 0 0
  · rw [hfull, htraces, hfilter]
  · rw [hnumber, htraces, Frame.length_traces]
    exact Nat.zero_add _
  · rw [hconsumed, hunread, List.length_take, Nat.min_eq_left hk]
    exact Nat.zero_add _
  · intro hclean
    rw [hfull, ← hend] at hclean
    subst hclean
    rw [hf.run_of_row_nil rfl hfirst hkept]
    exact ⟨rfl, rfl⟩
  · intro hcut
    rw [hfull, ← hend] at hcut
    rw [hlast, htraces, Frame.length_traces]
    refine ⟨frame.cut kept.length (RawTrace.extent kept) tail, cutAt_cut hk hsize htake hcut,
      Frame.index_cut _ _ _ _, ?_, ?_⟩
    · have := hf.endsAtCut rfl rfl hfirst hkept hcut
      rwa [show walk.traces = 0 from rfl, show walk.consumed = 0 from rfl, Nat.zero_add,
        Nat.zero_add] at this
    · intro extra more hextra hmore hbytes
      rw [htake.eq, List.append_assoc] at hbytes
      exact hf.getsPast rfl rfl rfl rfl hmore htake.holds htake.short hextra hbytes

/-- The second header block is cut after two of its bytes. -/
def nineOfTwelve : Tape := .ofBytes ((RawTrace.region oneSampleThenNone).take 9) (some 1) []

theorem run_take_nine_of_twelve :
    ∃ cut : TraceCut, cut.part = .header ∧ cut.missing = 3 ∧
      (textWalk.run none nineOfTwelve).failure? = some (.trace cut) := by
  have hlimit : some 1 ≠ some 0 := by decide
  have hserved : ∀ bytes : Bytes,
      (textOptions.frame .int16 textWalk.decoder).ServedBy (.ofBytes bytes (some 1) []) :=
    fun bytes => .of_steady (Tape.steady_ofBytes bytes hlimit) _
  have hnine : (textOptions.frame .int16 textWalk.decoder).ServedBy nineOfTwelve := hserved _
  obtain ⟨-, -, -, -, -, -, hcut⟩ :=
    run_take (show start countAndText textOptions = .ok textWalk by rfl)
      (show textOptions.format.coding? = some .int16 by rfl) rfl (by decide)
      (fun _ => ⟨_, rfl, rfl⟩) (hserved (RawTrace.region oneSampleThenNone)) rfl
      (show 9 ≤ _ by decide) hnine rfl
  obtain ⟨cut, hat, -, hends, -⟩ := hcut (by decide +kernel)
  obtain ⟨hpart, hexpected, hmissing⟩ := hat.header (by decide +kernel)
  have hlast : (textWalk.run none nineOfTwelve).lastEnd = 7 := by decide +kernel
  have hsize : countAndText.readSize = 5 := rfl
  rw [hsize] at hexpected
  rw [hlast, hsize] at hmissing
  have hp : Numeral.isPrintable cut.expected = true := Numeral.isPrintable_of_lt (by omega)
  exact ⟨cut, hpart, by omega, (hends.told hp).1⟩

/-- The samples would take `10 ^ 4300` bytes, the least number with too many digits. -/
def untoldOptions : Options where
  format := .integer2
  fixed := some (5 * Nat.pow 10 4299 : Nat)
  charset := some "us_ascii"

def untoldWalk : Walk := untoldOptions.fresh .int16 ⟨countAndText, .usAscii⟩

/-- A header block whose samples are missing ends the walk with no cut and no failed phase. -/
theorem run_of_untold_cut :
    start countAndText untoldOptions = .ok untoldWalk ∧
      let run := untoldWalk.run none (Tape.ofBytes [0, 0, 0, 0, 0] none [])
      run.traces = [] ∧ run.walk.consumed = 5 ∧ run.failure? = some .unprintable ∧
        run.walk.phase = .ready := by
  let frame := untoldOptions.frame .int16 ⟨countAndText, .usAscii⟩
  let tape := Tape.ofBytes [0, 0, 0, 0, 0] none []
  have hf : untoldWalk.Follows frame := follows_fresh (by decide) (fun h => by cases h) rfl
  have ht : frame.ServedBy tape := .of_steady (Tape.steady_ofBytes _ (by decide)) _
  have hshort : frame.Short [0, 0, 0, 0, 0] := by
    unfold Frame.Short
    decide +kernel
  have hrow : frame.Row tape.unread [] [0, 0, 0, 0, 0] := ⟨rfl, by simp, hshort⟩
  obtain ⟨htraces, -, hconsumed, -⟩ := hf.run_row rfl ht hrow
  have hends := hf.endsAtCut rfl rfl ht hrow (List.cons_ne_nil _ _)
  obtain ⟨hfailure, -, hphase⟩ := hends.untold (by decide +kernel)
  refine ⟨rfl, htraces, hconsumed, hfailure, ?_⟩
  rw [hphase, htraces]
  rfl

end Walk

end SeisLog
