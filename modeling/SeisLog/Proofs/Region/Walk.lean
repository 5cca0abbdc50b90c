import SeisLog.Proofs.Region.Frame

/-!
# Walks along a frame

On a tape that serves the frame a walk without a cap yields the traces of a row, one for one, and
ends at the rest of the region: cleanly where nothing is left, at a cut otherwise.
-/

namespace SeisLog

/-- The cut of a nonempty rest that begins with no whole trace. -/
def Frame.cut (frame : Frame) (index consumed : Nat) (rest : Bytes) : TraceCut :=
  if rest.length < frame.blockSize then
    ⟨index, .header, frame.blockSize, rest.length, consumed + rest.length⟩
  else
    ⟨index, .samples, frame.sampleSize (rest.take frame.blockSize), rest.length - frame.blockSize,
      consumed + rest.length⟩

namespace Frame

variable {frame : Frame} {rest : Bytes}

@[simp] theorem index_cut (frame : Frame) (index consumed : Nat) (rest : Bytes) :
    (frame.cut index consumed rest).index = index := by
  unfold cut
  split <;> rfl

@[simp] theorem consumed_cut (frame : Frame) (index consumed : Nat) (rest : Bytes) :
    (frame.cut index consumed rest).consumed = consumed + rest.length := by
  unfold cut
  split <;> rfl

theorem cut_of_lt (hl : rest.length < frame.blockSize) (index consumed : Nat) :
    frame.cut index consumed rest =
      ⟨index, .header, frame.blockSize, rest.length, consumed + rest.length⟩ := if_pos hl

theorem cut_of_le (hl : frame.blockSize ≤ rest.length) (index consumed : Nat) :
    frame.cut index consumed rest =
      ⟨index, .samples, frame.sampleSize (rest.take frame.blockSize),
        rest.length - frame.blockSize, consumed + rest.length⟩ :=
  if_neg (Nat.not_lt.mpr hl)

theorem Short.missing_pos (hs : frame.Short rest) (hn : rest ≠ []) (index consumed : Nat) :
    0 < (frame.cut index consumed rest).missing := by
  have hr := List.length_pos_iff.mpr hn
  unfold Short at hs
  by_cases hl : rest.length < frame.blockSize
  · rw [cut_of_lt hl]
    show 0 < frame.blockSize - rest.length
    omega
  · rw [cut_of_le (Nat.le_of_not_lt hl)]
    show 0 < frame.sampleSize (rest.take frame.blockSize) - (rest.length - frame.blockSize)
    omega

end Frame

namespace Walk

/-- The walk has no cap and reads the traces of the frame. -/
structure Follows (walk : Walk) (frame : Frame) : Prop where
  blockSize_pos : 0 < frame.blockSize
  readSize : walk.decoder.layout.readSize = frame.blockSize
  decode : ∀ block : Bytes, block.length = frame.blockSize →
    walk.decoder.decode block = .ok (frame.header block)
  count : ∀ block : Bytes, block.length = frame.blockSize →
    walk.rule.count (frame.header block) = .ok (frame.count block)
  coding : walk.coding = frame.coding
  cap : walk.cap = none

def past (walk : Walk) (raws : List RawTrace) : Walk :=
  { walk with
    phase := if raws.isEmpty then walk.phase else .active
    traces := walk.traces + raws.length
    consumed := walk.consumed + RawTrace.extent raws }

@[simp] theorem past_nil (walk : Walk) : walk.past [] = walk := rfl

theorem past_singleton (walk : Walk) (raw : RawTrace) :
    walk.past [raw] =
      { walk with
        phase := .active
        traces := walk.traces + 1
        consumed := walk.consumed + raw.bytes.length } := by
  simp [past]

theorem past_cons (walk : Walk) (raw : RawTrace) (raws : List RawTrace) :
    walk.past (raw :: raws) = (walk.past [raw]).past raws := by
  cases raws with
  | nil => rfl
  | cons next raws =>
      simp only [past, List.isEmpty_cons, List.length_cons, List.length_nil, RawTrace.extent_cons,
        RawTrace.extent_nil, Walk.mk.injEq, true_and]
      exact ⟨rfl, by omega, by omega⟩

theorem isOver_past {walk : Walk} (h : walk.isOver = false) (raws : List RawTrace) :
    (walk.past raws).isOver = false := by
  cases raws with
  | nil => exact h
  | cons raw raws => rfl

theorem Follows.past {walk : Walk} {frame : Frame} (h : walk.Follows frame)
    (raws : List RawTrace) : (walk.past raws).Follows frame :=
  ⟨h.blockSize_pos, h.readSize, h.decode, h.count, h.coding, h.cap⟩

variable {frame : Frame} {walk : Walk} {tape : Tape}

/-- The first thing a call does is to ask for a header block. -/
theorem Follows.next_eq (hf : walk.Follows frame) (ho : walk.isOver = false)
    (ht : frame.ServedBy tape) :
    walk.next tape =
      match tape.unread.take frame.blockSize with
      | [] => ⟨.ok none, walk.finish, tape.ahead frame.blockSize⟩
      | block => walk.ofHeader frame.blockSize block (tape.ahead frame.blockSize) := by
  have hc : walk.atCap = false := by simp [atCap, hf.cap]
  unfold next
  simp only [ho, hc, Bool.false_eq_true, if_false, hf.readSize,
    Reading.take_of_flowing ht.flowing ht.block, Int.toNat_natCast]
  cases tape.unread.take frame.blockSize <;> rfl

theorem Follows.next_of_nil (hf : walk.Follows frame) (ho : walk.isOver = false)
    (ht : frame.ServedBy tape) (hu : tape.unread = []) :
    walk.next tape = ⟨.ok none, walk.finish, tape⟩ := by
  rw [hf.next_eq ho ht, hu, Tape.ahead_of_nil hu, List.take_nil]

theorem Follows.next_of_ne_nil (hf : walk.Follows frame) (ho : walk.isOver = false)
    (ht : frame.ServedBy tape) (hu : tape.unread ≠ []) :
    walk.next tape =
      walk.ofHeader frame.blockSize (tape.unread.take frame.blockSize)
        (tape.ahead frame.blockSize) := by
  have hp := hf.blockSize_pos
  rw [hf.next_eq ho ht]
  split
  · rename_i hb
    rcases List.take_eq_nil_iff.mp hb with hz | hn
    · omega
    · exact (hu hn).elim
  · rfl

/-- After a whole header block the samples are asked for in one piece. -/
theorem Follows.ofHeader (hf : walk.Follows frame) (ht : tape.Flowing) {block : Bytes}
    (hg : tape.Grants (frame.sampleSize block)) (hb : block.length = frame.blockSize) :
    walk.ofHeader frame.blockSize block tape =
      (walk.advance block).ofSamples (frame.header block) (frame.sampleSize block)
        (tape.unread.take (frame.sampleSize block)) (tape.ahead (frame.sampleSize block)) := by
  unfold Walk.ofHeader
  simp only [hb, Nat.lt_irrefl, if_false]
  have hd : (walk.advance block).decoder.decode block = .ok (frame.header block) :=
    hf.decode block hb
  have hc : (walk.advance block).rule.count (frame.header block) = .ok (frame.count block) :=
    hf.count block hb
  have hs : frame.count block * (walk.advance block).coding.width = frame.sampleSize block := by
    rw [Frame.sampleSize, ← hf.coding]
    rfl
  simp only [hd, hc, readSamples, hs, Reading.take_of_flowing ht hg, Int.toNat_natCast]

theorem Follows.next_of_holds (hf : walk.Follows frame) (ho : walk.isOver = false)
    (ht : frame.ServedBy tape) {raw : RawTrace} {rest : Bytes} (hr : frame.Holds raw)
    (hu : tape.unread = raw.bytes ++ rest) :
    walk.next tape =
      ⟨.ok (some (frame.trace walk.traces (walk.consumed + raw.bytes.length) raw)),
        walk.past [raw], tape.ahead raw.bytes.length⟩ := by
  have hp := hf.blockSize_pos
  have hn : tape.unread ≠ [] := by
    have := hr.length_pos hp
    rw [hu]
    intro he
    simp [List.append_eq_nil_iff.mp he] at this
  have hb : tape.unread.take frame.blockSize = raw.block := by
    rw [hu, RawTrace.bytes, List.append_assoc, ← hr.block, List.take_left]
  have hd : (tape.ahead frame.blockSize).unread.take (frame.sampleSize raw.block) =
      raw.samples := by
    rw [Tape.unread_ahead, hu, RawTrace.bytes, List.append_assoc, ← hr.block, List.drop_left,
      ← hr.samples, List.take_left]
  have hle : frame.blockSize ≤ tape.unread.length := by
    rw [← hr.block, ← hb, List.length_take]
    exact Nat.min_le_right _ _
  have hg := ht.samples [] tape.unread (by simp) rfl hle
  rw [hb] at hg
  rw [hf.next_of_ne_nil ho ht hn, hb, hf.ofHeader (ht.flowing.ahead _) (hg.ahead _) hr.block, hd,
    Tape.ahead_ahead]
  have hl : raw.bytes.length = frame.blockSize + frame.sampleSize raw.block := by
    rw [RawTrace.bytes, List.length_append, hr.block, hr.samples]
  have hwhole : frame.coding.width ∣ raw.samples.length := by
    rw [hr.samples]
    exact Nat.dvd_mul_left _ _
  have hunpack : ((walk.advance raw.block).advance raw.samples).coding.unpack raw.samples =
      .ok (frame.coding.decode raw.samples) := by
    rw [show ((walk.advance raw.block).advance raw.samples).coding = frame.coding from hf.coding]
    exact SampleCoding.unpack_of_dvd hwhole
  simp only [ofSamples, hr.samples, Nat.lt_irrefl, if_false, hunpack, hl, Step.mk.injEq, and_true]
  constructor
  · simp only [Frame.trace, Walk.advance, hr.block, hr.samples, Nat.add_assoc]
  · simp only [past_singleton, yield, Walk.advance, hr.block, hr.samples, hl, Nat.add_assoc]

theorem Follows.next_of_short (hf : walk.Follows frame) (ho : walk.isOver = false)
    (ht : frame.ServedBy tape) (hn : tape.unread ≠ []) (hs : frame.Short tape.unread) :
    walk.next tape =
      (walk.advance tape.unread).fail (frame.cut walk.traces walk.consumed tape.unread)
        (tape.ahead tape.unread.length) := by
  rw [hf.next_of_ne_nil ho ht hn]
  unfold Frame.cut
  split
  · rename_i hl
    rw [List.take_of_length_le (Nat.le_of_lt hl), Tape.ahead_of_le (Nat.le_of_lt hl)]
    simp only [Walk.ofHeader, hl, if_true]
    rfl
  · rename_i hl
    have hb : (tape.unread.take frame.blockSize).length = frame.blockSize := by
      rw [List.length_take]
      omega
    have hlt : (tape.unread.drop frame.blockSize).length <
        frame.sampleSize (tape.unread.take frame.blockSize) := by
      have := hs
      unfold Frame.Short at this
      rw [List.length_drop]
      omega
    have hle : tape.unread.length ≤
        frame.blockSize + frame.sampleSize (tape.unread.take frame.blockSize) := Nat.le_of_lt hs
    have hg := ht.samples [] tape.unread (by simp) rfl (Nat.le_of_not_lt hl)
    rw [hf.ofHeader (ht.flowing.ahead _) (hg.ahead _) hb, Tape.ahead_ahead, Tape.ahead_of_le hle,
      Tape.unread_ahead, List.take_of_length_le (Nat.le_of_lt hlt)]
    simp only [ofSamples, hlt, if_true]
    have hc : (walk.advance (tape.unread.take frame.blockSize)).advance
        (tape.unread.drop frame.blockSize) = walk.advance tape.unread := by
      simp only [Walk.advance, hb, List.length_drop, Nat.add_assoc]
      congr 2
      omega
    rw [hc, List.length_drop]
    rfl

def stopped (walk : Walk) (cut : TraceCut) : Walk :=
  if Numeral.isPrintable cut.expected then { walk with phase := .failed, error := some cut }
  else walk

@[simp] theorem traces_stopped (walk : Walk) (cut : TraceCut) :
    (walk.stopped cut).traces = walk.traces := by
  unfold stopped
  split <;> rfl

@[simp] theorem consumed_stopped (walk : Walk) (cut : TraceCut) :
    (walk.stopped cut).consumed = walk.consumed := by
  unfold stopped
  split <;> rfl

theorem fail_eq (walk : Walk) (cut : TraceCut) (tape : Tape) :
    walk.fail cut tape = ⟨.error (Failure.trace cut).told, walk.stopped cut, tape⟩ := by
  unfold fail Failure.told stopped
  by_cases hp : Numeral.isPrintable cut.expected = true
  · have ht : (Failure.trace cut).isTellable = true := hp
    rw [if_pos ht, if_pos ht, if_pos hp]
  · have ht : ¬ (Failure.trace cut).isTellable = true := hp
    rw [if_neg ht, if_neg ht, if_neg hp]

/-- At the first trace of a row a call yields it and stands at the rest of the row. -/
theorem Follows.next_of_region (hf : walk.Follows frame) (ho : walk.isOver = false)
    (ht : frame.ServedBy tape) {raw : RawTrace} {raws : List RawTrace} {rest : Bytes}
    (hr : frame.Holds raw) (hu : tape.unread = RawTrace.region (raw :: raws) ++ rest) :
    walk.next tape =
        ⟨.ok (some (frame.trace walk.traces (walk.consumed + raw.bytes.length) raw)),
          walk.past [raw], tape.ahead raw.bytes.length⟩ ∧
      (tape.ahead raw.bytes.length).unread = RawTrace.region raws ++ rest ∧
      frame.ServedBy (tape.ahead raw.bytes.length) := by
  rw [RawTrace.region_cons, List.append_assoc] at hu
  have hone : tape.unread = RawTrace.region [raw] ++ (RawTrace.region raws ++ rest) := by
    simpa using hu
  refine ⟨hf.next_of_holds ho ht hr hu, ?_, ?_⟩
  · rw [Tape.unread_ahead, hu, List.drop_left]
  · simpa using ht.ahead (by simpa using hr) hone

/-- The traces of a row come first, and the walk goes on behind them. -/
theorem Follows.run_of_region (hf : walk.Follows frame) (ho : walk.isOver = false)
    (ht : frame.ServedBy tape) {raws : List RawTrace} {rest : Bytes}
    (hr : ∀ raw ∈ raws, frame.Holds raw) (hu : tape.unread = RawTrace.region raws ++ rest) :
    walk.run none tape =
      let last := (walk.past raws).run none (tape.ahead (RawTrace.extent raws))
      { last with traces := frame.traces walk.traces walk.consumed raws ++ last.traces } := by
  induction raws generalizing walk tape with
  | nil => simp [Frame.traces]
  | cons raw raws ih =>
      obtain ⟨hnext, hd, hserved⟩ := hf.next_of_region ho ht (hr raw List.mem_cons_self) hu
      rw [run_of_trace (by simp) hnext, Option.map_none,
        ih (hf.past _) (isOver_past ho _) hserved
          (fun other ho => hr other (List.mem_cons_of_mem _ ho)) hd,
        ← past_cons, Tape.ahead_ahead, ← RawTrace.extent_cons]
      simp only [Frame.traces, past_singleton, List.cons_append]

theorem Follows.callsInto_of_region (hf : walk.Follows frame) (ho : walk.isOver = false)
    (ht : frame.ServedBy tape) {raws : List RawTrace} {rest : Bytes}
    (hr : ∀ raw ∈ raws, frame.Holds raw) (hu : tape.unread = RawTrace.region raws ++ rest)
    (count : Nat) :
    callsInto [] (raws.length + count) walk tape =
      let last := callsInto [] count (walk.past raws) (tape.ahead (RawTrace.extent raws))
      ((frame.traces walk.traces walk.consumed raws).map some ++ last.1, last.2) := by
  induction raws generalizing walk tape with
  | nil => simp [Frame.traces]
  | cons raw raws ih =>
      obtain ⟨hnext, hd, hserved⟩ := hf.next_of_region ho ht (hr raw List.mem_cons_self) hu
      have hc : (raw :: raws).length + count = raws.length + count + 1 := by
        simp only [List.length_cons]
        omega
      rw [hc, callsInto_of_ok hnext,
        ih (hf.past _) (isOver_past ho _) hserved
          (fun other ho => hr other (List.mem_cons_of_mem _ ho)) hd,
        ← past_cons, Tape.ahead_ahead, ← RawTrace.extent_cons]
      simp only [Frame.traces, past_singleton, List.map_cons, List.cons_append]

theorem Follows.run_of_row_nil (hf : walk.Follows frame) (ho : walk.isOver = false)
    (ht : frame.ServedBy tape) {raws : List RawTrace} (hrow : frame.Row tape.unread raws []) :
    walk.run none tape =
      ⟨frame.traces walk.traces walk.consumed raws, none, (walk.past raws).finish,
        tape.ahead tape.unread.length⟩ := by
  have hu : tape.unread = RawTrace.region raws := by simpa using hrow.eq
  have hn : (tape.ahead (RawTrace.extent raws)).unread = [] := by
    rw [Tape.unread_ahead, hu, RawTrace.extent, List.drop_length]
  have hnext := (hf.past raws).next_of_nil (isOver_past ho raws) (ht.ahead hrow.holds hrow.eq) hn
  rw [hf.run_of_region ho ht hrow.holds hrow.eq, run_of_end (by simp) hnext, hu]
  simp [RawTrace.extent]

theorem Follows.run_of_row (hf : walk.Follows frame) (ho : walk.isOver = false)
    (ht : frame.ServedBy tape) {raws : List RawTrace} {rest : Bytes}
    (hrow : frame.Row tape.unread raws rest) (hn : rest ≠ []) :
    walk.run none tape =
      let cut := frame.cut (walk.traces + raws.length)
        (walk.consumed + RawTrace.extent raws) rest
      ⟨frame.traces walk.traces walk.consumed raws, some (Failure.trace cut).told,
        ((walk.past raws).advance rest).stopped cut, tape.ahead tape.unread.length⟩ := by
  have hd : (tape.ahead (RawTrace.extent raws)).unread = rest := by
    rw [Tape.unread_ahead, hrow.eq, RawTrace.extent, List.drop_left]
  have hl : RawTrace.extent raws + rest.length = tape.unread.length := by
    rw [hrow.eq, List.length_append, RawTrace.extent]
  have hnext := (hf.past raws).next_of_short (isOver_past ho raws) (ht.ahead hrow.holds hrow.eq)
    (hd.symm ▸ hn) (hd.symm ▸ hrow.short)
  rw [hd, fail_eq, Tape.ahead_ahead, hl] at hnext
  rw [hf.run_of_region ho ht hrow.holds hrow.eq, run_of_error (by simp) hnext]
  simp only [List.append_nil]
  rfl

/-- However a run ends, it yields the traces of the row and reads the tape to its end. -/
theorem Follows.run_row (hf : walk.Follows frame) (ho : walk.isOver = false)
    (ht : frame.ServedBy tape) (hrow : frame.Row tape.unread raws rest) :
    (walk.run none tape).traces = frame.traces walk.traces walk.consumed raws ∧
      (walk.run none tape).walk.traces = walk.traces + raws.length ∧
      (walk.run none tape).walk.consumed = walk.consumed + tape.unread.length ∧
      (walk.run none tape).tape.unread = [] := by
  have hend : (tape.ahead tape.unread.length).unread = [] := by
    rw [Tape.unread_ahead, List.drop_length]
  have hl : tape.unread.length = RawTrace.extent raws + rest.length := by
    rw [hrow.eq, List.length_append, RawTrace.extent]
  by_cases hn : rest = []
  · subst hn
    rw [hf.run_of_row_nil ho ht hrow]
    refine ⟨rfl, rfl, ?_, hend⟩
    rw [hl]
    rfl
  · rw [hf.run_of_row ho ht hrow hn]
    refine ⟨rfl, ?_, ?_, hend⟩
    · rw [traces_stopped]
      rfl
    · rw [consumed_stopped, hl, ← Nat.add_assoc]
      rfl

end Walk

end SeisLog
