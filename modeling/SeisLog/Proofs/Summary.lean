import SeisLog.Proofs.Region.Walk
import SeisLog.Summary

/-!
# Summaries of runs

A summary is a fold: it counts the traces, widens the extremes by those of each trace, and ends
where the last trace does, or where the interruption was.
-/

namespace SeisLog

namespace Summary

/-- The extreme over all traces, where `pick` chooses in a trace and `beyond` between traces. -/
def extreme? (pick : Binary64 → Binary64 → Binary64) (beyond : Binary64 → Binary64 → Bool)
    (samples : List (List Binary64)) : Option Binary64 :=
  (samples.map (Binary64.extreme? pick)).foldl (widen beyond) none

private theorem foldl_add (summary : Summary) (traces : List Trace) :
    traces.foldl add summary =
      { summary with
        count := summary.count + traces.length
        least := (traces.map Trace.least?).foldl (widen Binary64.lt) summary.least
        greatest := (traces.map Trace.greatest?).foldl (widen fun x y => y.lt x) summary.greatest
        consumed := (traces.getLast?.map Trace.consumed).getD summary.consumed } := by
  induction traces generalizing summary with
  | nil => simp
  | cons trace traces ih =>
      rw [List.foldl_cons, ih, List.getLast?_cons]
      simp only [add, List.length_cons, List.map_cons, List.foldl_cons, mk.injEq, true_and]
      refine ⟨by omega, ?_⟩
      cases traces.getLast? <;> rfl

theorem ofTraces_eq (traces : List Trace) (interruption? : Option Interruption) :
    ofTraces traces interruption? =
      { count := traces.length
        least := extreme? Binary64.lesser Binary64.lt (traces.map Trace.samples)
        greatest := extreme? Binary64.greater (fun x y => y.lt x) (traces.map Trace.samples)
        isComplete := interruption?.isNone
        error := interruption?.map Interruption.message
        consumed := (interruption?.map Interruption.consumed).getD
          ((traces.getLast?.map Trace.consumed).getD 0) } := by
  cases interruption? with
  | none =>
      rw [ofTraces, foldl_add]
      simp only [empty, extreme?, List.map_map, Int.zero_add]
      rfl
  | some interruption =>
      rw [ofTraces, foldl_add]
      simp only [empty, interrupted, extreme?, List.map_map, Int.zero_add]
      rfl

end Summary

theorem Frame.map_samples_traces (frame : Frame) (index consumed : Nat) (raws : List RawTrace) :
    (frame.traces index consumed raws).map Trace.samples =
      raws.map fun raw => frame.coding.decode raw.samples := by
  induction raws generalizing index consumed with
  | nil => rfl
  | cons raw raws ih =>
      rw [traces, List.map_cons, ih]
      rfl

/-- The summary of a run is that of the traces of the row, interrupted where a rest is left. -/
theorem Walk.Follows.summary_run {frame : Frame} {walk : Walk} {tape : Tape}
    {raws : List RawTrace} {rest : Bytes} (hf : walk.Follows frame) (ho : walk.isOver = false)
    (ht : frame.ServedBy tape) (hrow : frame.Row tape.unread raws rest)
    (hcut : Numeral.isPrintable (frame.cut (walk.traces + raws.length)
      (walk.consumed + RawTrace.extent raws) rest).expected = true) :
    (walk.run none tape).summary =
      .ok (Summary.ofTraces (frame.traces walk.traces walk.consumed raws)
        (if rest = [] then none
        else some (frame.cut (walk.traces + raws.length)
          (walk.consumed + RawTrace.extent raws) rest).interruption)) := by
  by_cases hn : rest = []
  · subst hn
    rw [hf.run_of_row_nil ho ht hrow, if_pos rfl]
    rfl
  · have hfailure : (walk.run none tape).failure? = some (.trace (frame.cut
        (walk.traces + raws.length) (walk.consumed + RawTrace.extent raws) rest)) := by
      rw [hf.run_of_row ho ht hrow hn]
      dsimp only
      rw [Failure.told_trace, if_pos hcut]
    have htraces : (walk.run none tape).traces =
        frame.traces walk.traces walk.consumed raws := by
      rw [hf.run_of_row ho ht hrow hn]
    rw [Run.summary, Run.interruption?, hfailure, htraces, if_neg hn]
    rfl

namespace Reading

theorem summary_eq {layout : Layout} {options : Walk.Options} {walk : Walk}
    (hstart : Walk.start layout options = .ok walk) (tape : Tape) :
    summary layout options tape =
      ((walk.run none tape).summary,
        ((walk.run none tape).walk.close (walk.run none tape).tape).2) := by
  rw [summary, hstart]
  dsimp only
  rw [Walk.summarize_eq]

end Reading

end SeisLog
