import SeisLog.Proofs.Region.Frame

/-!
# Prefixes of a region

The first bytes of a region are a row again: the whole traces that end inside, and a shorter rest
(`Row.exists_take`). The traces of the prefix are those of the region that end at or before its
length.
-/

namespace SeisLog.Frame

variable {frame : Frame}

/-- A prefix of bytes that begin with no whole trace begins with none. -/
theorem Short.take {rest : Bytes} (h : frame.Short rest) (k : Nat) : frame.Short (rest.take k) := by
  unfold Short at h ⊢
  by_cases hk : k < frame.blockSize
  · rw [List.length_take]
    omega
  · rw [List.take_take, Nat.min_eq_left (Nat.le_of_not_lt hk), List.length_take]
    omega

/-- A strict prefix of a whole trace holds no whole trace. -/
theorem Holds.short_take {raw : RawTrace} (h : frame.Holds raw) {k : Nat}
    (hk : k < raw.bytes.length) : frame.Short (raw.bytes.take k) := by
  have hl : raw.bytes.length = frame.blockSize + frame.sampleSize raw.block := by
    rw [RawTrace.bytes, List.length_append, h.block, h.samples]
  unfold Short
  by_cases hb : k < frame.blockSize
  · rw [List.length_take]
    omega
  · have ht : (raw.bytes.take k).take frame.blockSize = raw.block := by
      rw [List.take_take, Nat.min_eq_left (Nat.le_of_not_lt hb), RawTrace.bytes, ← h.block,
        List.take_left]
    rw [ht, List.length_take]
    omega

/-- Every trace of a row ends behind the place where the row starts. -/
theorem lt_consumed_of_mem (hp : 0 < frame.blockSize) {raws : List RawTrace}
    (hr : ∀ raw ∈ raws, frame.Holds raw) {index consumed : Nat} {trace : Trace}
    (ht : trace ∈ frame.traces index consumed raws) : (consumed : Int) < trace.consumed := by
  induction raws generalizing index consumed with
  | nil => cases ht
  | cons raw raws ih =>
      have hpos := (hr raw List.mem_cons_self).length_pos hp
      rcases List.mem_cons.mp ht with rfl | ht
      · show (consumed : Int) < (consumed + raw.bytes.length : Nat)
        omega
      · have := ih (fun other ho => hr other (List.mem_cons_of_mem _ ho)) ht
        omega

theorem consumed_le_of_mem {raws : List RawTrace} {index consumed : Nat} {trace : Trace}
    (ht : trace ∈ frame.traces index consumed raws) :
    trace.consumed ≤ (consumed + RawTrace.extent raws : Nat) := by
  induction raws generalizing index consumed with
  | nil => cases ht
  | cons raw raws ih =>
      rw [RawTrace.extent_cons]
      rcases List.mem_cons.mp ht with rfl | ht
      · show ((consumed + raw.bytes.length : Nat) : Int) ≤ _
        omega
      · have := ih ht
        omega

theorem pairwise_consumed (hp : 0 < frame.blockSize) {raws : List RawTrace}
    (hr : ∀ raw ∈ raws, frame.Holds raw) (index consumed : Nat) :
    (frame.traces index consumed raws).Pairwise (·.consumed < ·.consumed) := by
  induction raws generalizing index consumed with
  | nil => exact List.Pairwise.nil
  | cons raw raws ih =>
      have hrest : ∀ other ∈ raws, frame.Holds other := fun other ho =>
        hr other (List.mem_cons_of_mem _ ho)
      exact List.pairwise_cons.mpr
        ⟨fun trace ht => lt_consumed_of_mem hp hrest ht, ih hrest _ _⟩

theorem getLast?_consumed (frame : Frame) (index consumed : Nat) (raws : List RawTrace) :
    ((frame.traces index consumed raws).getLast?.map Trace.consumed).getD consumed =
      (consumed + RawTrace.extent raws : Nat) := by
  induction raws generalizing index consumed with
  | nil => simp [traces]
  | cons raw raws ih =>
      have := ih (index + 1) (consumed + raw.bytes.length)
      rw [RawTrace.extent_cons, ← Nat.add_assoc, ← this, traces, List.getLast?_cons]
      cases (frame.traces (index + 1) (consumed + raw.bytes.length) raws).getLast? <;> rfl

/-- The first `k` bytes of a row are a row: the traces that end inside, and what is left. -/
theorem Row.exists_take (hp : 0 < frame.blockSize) {bytes rest : Bytes} {raws : List RawTrace}
    (h : frame.Row bytes raws rest) (k : Nat) :
    ∃ kept tail, frame.Row (bytes.take k) kept tail ∧ kept <+: raws ∧
      ∀ index consumed : Nat, frame.traces index consumed kept =
        (frame.traces index consumed raws).filter (·.consumed ≤ ((consumed + k : Nat) : Int)) := by
  obtain ⟨rfl, hr, hs⟩ := h
  induction raws generalizing k with
  | nil => exact ⟨[], rest.take k, ⟨rfl, by simp, hs.take k⟩, List.prefix_rfl, by simp [traces]⟩
  | cons raw raws ih =>
      have hraw := hr raw List.mem_cons_self
      have hrest : ∀ other ∈ raws, frame.Holds other := fun other ho =>
        hr other (List.mem_cons_of_mem _ ho)
      by_cases hk : k < raw.bytes.length
      · refine ⟨[], raw.bytes.take k, ⟨?_, by simp, hraw.short_take hk⟩, List.nil_prefix, ?_⟩
        · rw [RawTrace.region_cons, List.append_assoc,
            List.take_append_of_le_length (Nat.le_of_lt hk)]
          rfl
        · intro index consumed
          refine (List.filter_eq_nil_iff.mpr ?_).symm
          intro trace ht hle
          have hle : trace.consumed ≤ (consumed + k : Nat) := by simpa using hle
          rcases List.mem_cons.mp ht with rfl | ht
          · have : ((consumed + raw.bytes.length : Nat) : Int) ≤ (consumed + k : Nat) := hle
            omega
          · have := lt_consumed_of_mem hp hrest ht
            omega
      · obtain ⟨kept, tail, hrow, hpre, hfilter⟩ := ih (k - raw.bytes.length) hrest
        have hsplit : (RawTrace.region (raw :: raws) ++ rest).take k =
            raw.bytes ++ (RawTrace.region raws ++ rest).take (k - raw.bytes.length) := by
          rw [RawTrace.region_cons, List.append_assoc, List.take_append,
            List.take_of_length_le (Nat.le_of_not_lt hk)]
        refine ⟨raw :: kept, tail, ⟨?_, ?_, hrow.short⟩, List.cons_prefix_cons.mpr ⟨rfl, hpre⟩, ?_⟩
        · rw [hsplit, hrow.eq, RawTrace.region_cons, List.append_assoc]
        · intro other ho
          rcases List.mem_cons.mp ho with rfl | ho
          · exact hraw
          · exact hrow.holds other ho
        · intro index consumed
          have hle : consumed + raw.bytes.length + (k - raw.bytes.length) = consumed + k := by omega
          have hhead : (frame.trace index (consumed + raw.bytes.length) raw).consumed ≤
              (consumed + k : Nat) := by
            show ((consumed + raw.bytes.length : Nat) : Int) ≤ _
            omega
          rw [traces, traces, List.filter_cons_of_pos (by simpa using hhead), hfilter, hle]

theorem Row.length_take {bytes tail : Bytes} {kept : List RawTrace} {k : Nat}
    (h : frame.Row (bytes.take k) kept tail) (hk : k ≤ bytes.length) :
    RawTrace.extent kept + tail.length = k := by
  have := congrArg List.length h.eq
  rw [List.length_append, List.length_take, Nat.min_eq_left hk] at this
  exact this.symm

/-- The trace behind those that a prefix holds ends behind the prefix. -/
theorem lt_extent_of_take (hp : 0 < frame.blockSize) {raws kept : List RawTrace} {k : Nat}
    (hr : ∀ raw ∈ raws, frame.Holds raw) (hpre : kept <+: raws)
    (hf : frame.traces 0 0 kept = (frame.traces 0 0 raws).filter (·.consumed ≤ (k : Int)))
    (hl : kept.length < raws.length) : k < RawTrace.extent (raws.take (kept.length + 1)) := by
  have hkept : kept = raws.take kept.length := List.prefix_iff_eq_take.mp hpre
  have hget : raws[kept.length]? = some raws[kept.length] := List.getElem?_eq_getElem hl
  have hraw := (hr _ (List.mem_of_getElem? hget)).length_pos hp
  have hend : RawTrace.extent (raws.take (kept.length + 1)) =
      RawTrace.extent kept + raws[kept.length].bytes.length := by
    rw [List.take_add_one, hget, RawTrace.extent_append, ← hkept]
    simp
  by_cases hk : k < RawTrace.extent (raws.take (kept.length + 1))
  · exact hk
  · have htrace := frame.getElem?_traces 0 0 raws kept.length
    rw [hget, Option.map_some, Nat.zero_add, Nat.zero_add] at htrace
    have hm := List.mem_of_getElem? htrace
    have hin : frame.trace kept.length (RawTrace.extent (raws.take (kept.length + 1)))
        raws[kept.length] ∈ frame.traces 0 0 kept := by
      rw [hf]
      refine List.mem_filter.mpr ⟨hm, decide_eq_true ?_⟩
      show (RawTrace.extent (raws.take (kept.length + 1)) : Int) ≤ k
      omega
    have hle : (RawTrace.extent (raws.take (kept.length + 1)) : Int) ≤
        (0 + RawTrace.extent kept : Nat) := consumed_le_of_mem hin
    omega

/-- A prefix is whole traces to its end where it is empty or ends with a trace. -/
theorem Row.eq_nil_iff {bytes tail : Bytes} {raws kept : List RawTrace} {k : Nat}
    (ht : frame.Row (bytes.take k) kept tail) (hk : k ≤ bytes.length)
    (hf : frame.traces 0 0 kept = (frame.traces 0 0 raws).filter (·.consumed ≤ (k : Int))) :
    tail = [] ↔ k = 0 ∨ ∃ trace ∈ frame.traces 0 0 raws, trace.consumed = k := by
  have hl := ht.length_take hk
  constructor
  · rintro rfl
    rcases List.eq_nil_or_concat kept with rfl | ⟨front, last, hkept⟩
    · exact .inl hl.symm
    · right
      rw [List.concat_eq_append] at hkept
      subst hkept
      refine ⟨frame.trace front.length (RawTrace.extent (front ++ [last])) last, ?_, ?_⟩
      · have hm : frame.trace front.length (RawTrace.extent (front ++ [last])) last ∈
            frame.traces 0 0 (front ++ [last]) := by
          rw [traces_append, RawTrace.extent_append]
          simp [traces]
        rw [hf] at hm
        exact (List.mem_filter.mp hm).1
      · show (RawTrace.extent (front ++ [last]) : Int) = k
        rw [← hl, List.length_nil, Nat.add_zero]
  · intro hend
    apply List.eq_nil_of_length_eq_zero
    rcases hend with rfl | ⟨trace, hm, hc⟩
    · omega
    · have hkept : trace ∈ frame.traces 0 0 kept := by
        rw [hf]
        exact List.mem_filter.mpr ⟨hm, by simp [hc]⟩
      have := consumed_le_of_mem hkept
      omega

end SeisLog.Frame
