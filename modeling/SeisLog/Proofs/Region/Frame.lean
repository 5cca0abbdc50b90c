import SeisLog.Proofs.Header
import SeisLog.Proofs.Run
import SeisLog.Proofs.Steady

/-!
# Frames of a trace region

A frame tells how traces lie in the bytes of a region: header blocks of one size, each of which
says how many samples follow it. Every region is a row of whole traces and a rest that begins with
no whole trace (`exists_row`). On a tape that serves the frame a walk yields the traces of the row,
one for one, and ends at the rest (`run_of_row`).
-/

namespace SeisLog

structure Frame where
  blockSize : Nat
  header : Bytes → Header
  count : Bytes → Nat
  coding : SampleCoding

structure RawTrace where
  block : Bytes
  samples : Bytes

namespace RawTrace

def bytes (raw : RawTrace) : Bytes := raw.block ++ raw.samples

def region (raws : List RawTrace) : Bytes := raws.flatMap bytes

def extent (raws : List RawTrace) : Nat := (region raws).length

@[simp] theorem region_nil : region [] = [] := rfl

@[simp] theorem region_cons (raw : RawTrace) (raws : List RawTrace) :
    region (raw :: raws) = raw.bytes ++ region raws := rfl

theorem region_append (a b : List RawTrace) : region (a ++ b) = region a ++ region b :=
  List.flatMap_append

@[simp] theorem extent_nil : extent [] = 0 := rfl

@[simp] theorem extent_cons (raw : RawTrace) (raws : List RawTrace) :
    extent (raw :: raws) = raw.bytes.length + extent raws := by
  simp [extent]

theorem extent_append (a b : List RawTrace) : extent (a ++ b) = extent a + extent b := by
  simp [extent, region]

theorem extent_take_le (raws : List RawTrace) (count : Nat) :
    extent (raws.take count) ≤ extent raws := by
  have h := extent_append (raws.take count) (raws.drop count)
  rw [List.take_append_drop] at h
  omega

end RawTrace

namespace Frame

def sampleSize (frame : Frame) (block : Bytes) : Nat := frame.count block * frame.coding.width

structure Holds (frame : Frame) (raw : RawTrace) : Prop where
  block : raw.block.length = frame.blockSize
  samples : raw.samples.length = frame.sampleSize raw.block

/-- The bytes begin with no whole trace. -/
def Short (frame : Frame) (rest : Bytes) : Prop :=
  rest.length < frame.blockSize + frame.sampleSize (rest.take frame.blockSize)

/-- The bytes are whole traces and a rest that begins with none. -/
structure Row (frame : Frame) (bytes : Bytes) (raws : List RawTrace) (rest : Bytes) : Prop where
  eq : bytes = RawTrace.region raws ++ rest
  holds : ∀ raw ∈ raws, frame.Holds raw
  short : frame.Short rest

/-- The trace in the given bytes, with the number of bytes behind it. -/
def trace (frame : Frame) (index consumed : Nat) (raw : RawTrace) : Trace :=
  ⟨index, frame.header raw.block, frame.coding.decode raw.samples, consumed⟩

/-- The traces of a row that starts after `consumed` bytes. -/
def traces (frame : Frame) (index consumed : Nat) : List RawTrace → List Trace
  | [] => []
  | raw :: raws =>
      frame.trace index (consumed + raw.bytes.length) raw ::
        frame.traces (index + 1) (consumed + raw.bytes.length) raws

@[simp] theorem length_traces (frame : Frame) (index consumed : Nat) (raws : List RawTrace) :
    (frame.traces index consumed raws).length = raws.length := by
  induction raws generalizing index consumed with
  | nil => rfl
  | cons raw raws ih => simp [traces, ih]

theorem getElem?_traces (frame : Frame) (index consumed : Nat) (raws : List RawTrace) (i : Nat) :
    (frame.traces index consumed raws)[i]? = raws[i]?.map
      (frame.trace (index + i) (consumed + RawTrace.extent (raws.take (i + 1)))) := by
  induction raws generalizing index consumed i with
  | nil => simp [traces]
  | cons raw raws ih =>
      cases i with
      | zero => simp [traces]
      | succ i =>
          rw [traces, List.getElem?_cons_succ, ih, List.getElem?_cons_succ]
          simp only [List.take_succ_cons, RawTrace.extent_cons, Nat.add_assoc, Nat.add_comm 1 i]

theorem traces_append (frame : Frame) (index consumed : Nat) (a b : List RawTrace) :
    frame.traces index consumed (a ++ b) =
      frame.traces index consumed a ++
        frame.traces (index + a.length) (consumed + RawTrace.extent a) b := by
  induction a generalizing index consumed with
  | nil => rfl
  | cons raw a ih =>
      rw [List.cons_append, traces, traces, ih, RawTrace.extent_cons, List.length_cons]
      simp only [List.cons_append, Nat.add_assoc, Nat.add_comm 1]

/-- The tape flows, and it grants what a walk along the frame asks for: the header blocks, and the
samples behind every header block to which whole traces lead. -/
structure ServedBy (frame : Frame) (tape : Tape) : Prop where
  flowing : tape.Flowing
  block : tape.Grants frame.blockSize
  samples : ∀ (raws : List RawTrace) (rest : Bytes), (∀ raw ∈ raws, frame.Holds raw) →
    tape.unread = RawTrace.region raws ++ rest → frame.blockSize ≤ rest.length →
    tape.Grants (frame.sampleSize (rest.take frame.blockSize))

/-- Behind whole traces the tape serves the frame as well. -/
theorem ServedBy.ahead {frame : Frame} {tape : Tape} (h : frame.ServedBy tape)
    {raws : List RawTrace} {rest : Bytes} (hr : ∀ raw ∈ raws, frame.Holds raw)
    (hu : tape.unread = RawTrace.region raws ++ rest) :
    frame.ServedBy (tape.ahead (RawTrace.extent raws)) where
  flowing := h.flowing.ahead _
  block := h.block.ahead _
  samples later left hlater hleft hb := by
    rw [Tape.unread_ahead, hu, RawTrace.extent, List.drop_left] at hleft
    refine (h.samples (raws ++ later) left ?_ ?_ hb).ahead _
    · intro raw hm
      exact (List.mem_append.mp hm).elim (hr raw) (hlater raw)
    · rw [hu, hleft, RawTrace.region_append, List.append_assoc]

theorem ServedBy.of_grants {frame : Frame} {tape : Tape} (ht : tape.Flowing)
    (hg : tape.Grants frame.blockSize) (hs : ∀ block, tape.Grants (frame.sampleSize block)) :
    frame.ServedBy tape := ⟨ht, hg, fun _ _ _ _ _ => hs _⟩

theorem ServedBy.of_steady {tape : Tape} (h : tape.Steady) (frame : Frame) : frame.ServedBy tape :=
  .of_grants h.flowing (h.grants _) fun _ => h.grants _

theorem Holds.length_pos {frame : Frame} {raw : RawTrace} (h : frame.Holds raw)
    (hp : 0 < frame.blockSize) : 0 < raw.bytes.length := by
  have := h.block
  simp only [RawTrace.bytes, List.length_append]
  omega

/-- Every region is a row of whole traces and a rest. -/
theorem exists_row {frame : Frame} (hp : 0 < frame.blockSize) (bytes : Bytes) :
    ∃ raws rest, frame.Row bytes raws rest := by
  induction h : bytes.length using Nat.strongRecOn generalizing bytes with
  | _ n ih =>
      by_cases hs : frame.Short bytes
      · exact ⟨[], bytes, rfl, by simp, hs⟩
      · let block := bytes.take frame.blockSize
        have hle : frame.blockSize + frame.sampleSize block ≤ bytes.length := Nat.le_of_not_lt hs
        let samples := (bytes.drop frame.blockSize).take (frame.sampleSize block)
        let later := (bytes.drop frame.blockSize).drop (frame.sampleSize block)
        have hl : later.length < n := by
          simp only [later, List.length_drop]
          omega
        obtain ⟨raws, rest, hrow⟩ := ih _ hl later rfl
        have hb : block.length = frame.blockSize := by
          simp only [block, List.length_take]
          omega
        refine ⟨⟨block, samples⟩ :: raws, rest, ?_, ?_, hrow.short⟩
        · rw [RawTrace.region_cons, List.append_assoc, ← hrow.eq, RawTrace.bytes]
          simp only [block, samples, later, List.append_assoc, List.take_append_drop]
        · intro raw hr
          rcases List.mem_cons.mp hr with rfl | hr
          · refine ⟨hb, ?_⟩
            simp only [samples, List.length_take, List.length_drop]
            omega
          · exact hrow.holds raw hr

end Frame

end SeisLog
