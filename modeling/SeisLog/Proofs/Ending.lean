import SeisLog.Proofs.Reads
import SeisLog.Proofs.Run

/-!
# Every walk ends

No counter stops a loop over a walk. Each trace takes a whole header block at least, so there are no
more traces than blocks in the bytes that are left, and a block without bytes is never a trace. One
call more ends the loop (`exists_loops`), whatever the counts, the stalls and the short reads.
-/

namespace SeisLog

namespace Walk

/-- The most traces that a walk can find on a tape: the header blocks that fit its bytes, none if a
block has no bytes. -/
def mostTraces (walk : Walk) (tape : Tape) : Nat :=
  tape.unread.length / walk.decoder.layout.readSize.toNat

/-- A loop over a walk, call by call: it made so many calls, and it stops at the first one without a
trace, or when it has as many traces as wanted. -/
inductive Loops : Nat → Option Nat → Walk → Tape → Run Tape → Prop
  | stopped (walk : Walk) (tape : Tape) : Loops 0 (some 0) walk tape ⟨[], none, walk, tape⟩
  | failed {wanted : Option Nat} {walk after : Walk} {tape left : Tape} {failure : Failure} :
      wanted ≠ some 0 → walk.next tape = ⟨.error failure, after, left⟩ →
      Loops 1 wanted walk tape ⟨[], some failure, after, left⟩
  | ended {wanted : Option Nat} {walk after : Walk} {tape left : Tape} :
      wanted ≠ some 0 → walk.next tape = ⟨.ok none, after, left⟩ →
      Loops 1 wanted walk tape ⟨[], none, after, left⟩
  | yielded {wanted : Option Nat} {walk after : Walk} {tape left : Tape} {trace : Trace}
      {calls : Nat} {rest : Run Tape} :
      wanted ≠ some 0 → walk.next tape = ⟨.ok (some trace), after, left⟩ →
      Loops calls (wanted.map (· - 1)) after left rest →
      Loops (calls + 1) wanted walk tape { rest with traces := trace :: rest.traces }

variable {walk : Walk} {tape : Tape}

theorem le_length_of_ofHeader {size : Nat} {block : Bytes} {trace : Trace}
    (h : (walk.ofHeader size block tape).answer = .ok (some trace)) : size ≤ block.length := by
  unfold ofHeader at h
  dsimp only at h
  split at h
  · unfold fail at h
    split at h <;> cases h
  · omega

/-- A trace takes at least its header block, which has bytes. -/
theorem readSize_le_of_trace {trace : Trace} (h : (walk.next tape).answer = .ok (some trace)) :
    let size := walk.decoder.layout.readSize.toNat
    0 < size ∧ (walk.next tape).tape.unread.length + size ≤ tape.unread.length := by
  intro size
  unfold next at h ⊢
  dsimp only at h ⊢
  split at h
  · cases h
  · rename_i hover
    rw [if_neg hover]
    split at h
    · cases h
    · rename_i hcap
      rw [if_neg hcap]
      split at h
      · cases h
      · cases h
      · rename_i block after hblock htake
        obtain ⟨happend, hle⟩ := Reading.take_append htake
        have hwhole : size ≤ block.length := le_length_of_ofHeader h
        have hrest : (walk.ofHeader size block after).tape.unread.length ≤ after.unread.length :=
          left_ofHeader_le walk size block after
        have hpos := List.length_pos_iff.mpr fun hnil => hblock (hnil ▸ rfl)
        rw [← happend, List.length_append]
        show 0 < size ∧ (walk.ofHeader size block after).tape.unread.length + size ≤ _
        omega

/-- Behind a trace there is room for one trace less. -/
theorem mostTraces_of_trace {trace : Trace} (h : (walk.next tape).answer = .ok (some trace)) :
    (walk.next tape).walk.mostTraces (walk.next tape).tape + 1 ≤ walk.mostTraces tape := by
  obtain ⟨hpos, hle⟩ := readSize_le_of_trace h
  obtain ⟨_, -, hdoes⟩ := next_does walk tape
  rw [mostTraces, hdoes.keeps.1, ← Nat.add_div_right _ hpos]
  exact Nat.div_le_div_right hle

/-- A loop ends after one call more than there are traces to find, at the latest. -/
theorem exists_loops (wanted : Option Nat) (walk : Walk) (tape : Tape) :
    ∃ calls ≤ walk.mostTraces tape + 1, Loops calls wanted walk tape (walk.run wanted tape) := by
  induction wanted, walk, tape using run_induct with
  | stopped walk tape => exact ⟨0, Nat.zero_le _, .stopped walk tape⟩
  | failed wanted walk tape failure hw ha =>
      refine ⟨1, Nat.le_add_left _ _, .failed hw ?_⟩
      rw [← ha]
  | ended wanted walk tape hw ha =>
      refine ⟨1, Nat.le_add_left _ _, .ended hw ?_⟩
      rw [← ha]
  | yielded wanted walk tape trace hw ha rest ih =>
      obtain ⟨calls, hcalls, hloops⟩ := ih
      have hmost := mostTraces_of_trace ha
      refine ⟨calls + 1, by omega, .yielded hw ?_ hloops⟩
      rw [← ha]

/-- A loop that wants all traces makes its calls up to the first one without a trace. -/
theorem Loops.calls_eq {calls : Nat} {run : Run Tape} (h : Loops calls none walk tape run) :
    ∃ count earlier last, calls = count + 1 ∧ walk.calls calls tape = earlier ++ [last] ∧
      (∀ call ∈ earlier, call.trace?.isSome = true) ∧ last.trace? = none := by
  generalize hwanted : (none : Option Nat) = wanted at h
  induction h with
  | stopped => cases hwanted
  | @failed _ walk _ tape _ _ _ hn =>
      refine ⟨0, [], ⟨walk.consumed, walk.next tape⟩, rfl, rfl, List.forall_mem_nil _, ?_⟩
      rw [Call.trace?, hn]
      rfl
  | @ended _ walk _ tape _ _ hn =>
      refine ⟨0, [], ⟨walk.consumed, walk.next tape⟩, rfl, rfl, List.forall_mem_nil _, ?_⟩
      rw [Call.trace?, hn]
      rfl
  | @yielded _ walk after tape left _ calls _ _ hn _ ih =>
      subst hwanted
      obtain ⟨count, earlier, last, hcount, hcalls, hearlier, hlast⟩ := ih rfl
      refine ⟨calls, ⟨walk.consumed, walk.next tape⟩ :: earlier, last, rfl, ?_, ?_, hlast⟩
      · rw [Walk.calls, hn, hcalls]
        rfl
      · intro call hcall
        rcases List.mem_cons.mp hcall with rfl | hcall
        · rw [Call.trace?, hn]
          rfl
        · exact hearlier call hcall

/-- However often a walk is called, also behind failures, there is room for the traces it gives. -/
theorem length_traces_calls_le (count : Nat) (walk : Walk) (tape : Tape) :
    ((walk.calls count tape).filterMap Call.trace?).length ≤ walk.mostTraces tape := by
  induction count generalizing walk tape with
  | zero => exact Nat.zero_le _
  | succ count ih =>
      have hrest := ih (walk.next tape).walk (walk.next tape).tape
      rw [Walk.calls, List.filterMap_cons]
      split
      · obtain ⟨_, -, hdoes⟩ := next_does walk tape
        have hunread := unread_next_le walk tape
        rw [mostTraces, hdoes.keeps.1] at hrest
        exact Nat.le_trans hrest (Nat.div_le_div_right hunread)
      · rename_i trace htrace
        have hmost := mostTraces_of_trace (Call.trace?_eq_some.mp htrace)
        rw [List.length_cons]
        exact Nat.le_trans (Nat.succ_le_succ hrest) hmost

theorem next_of_readSize_le_zero (hsize : walk.decoder.layout.readSize ≤ 0)
    (hopen : walk.isOver = false) (tape : Tape) :
    walk.next tape = ⟨.ok none, walk.finish, tape⟩ := by
  have htake : Reading.take walk.decoder.layout.readSize tape = (.ok [], tape) := by
    rw [Reading.take_tape, if_pos hsize]
    rfl
  rw [next, hopen]
  cases walk.atCap with
  | true => rfl
  | false =>
      dsimp only [Bool.false_eq_true, if_false]
      rw [htake]
      rfl

end Walk

open Walk

/-- A walk that is called again and again gives no trace after a bounded number of calls, and it
never gives more traces than header blocks fit the bytes in front of it. One whose blocks have no
bytes is exhausted at once. So whatever goes through the traces of a walk ends, and so does an
extraction. A recorded tape is handled alike, and its record shows that the reads are bounded by the
bytes. -/
theorem Handling.apply_ends {layout : Layout} {options : Walk.Options} {walk : Walk}
    (hstart : Walk.start layout options = .ok walk) (tape : Tape) :
    let size := layout.readSize
    let most := tape.unread.length / size.toNat
    (∃ count ≤ most, ∃ earlier last, walk.calls (count + 1) tape = earlier ++ [last] ∧
      (∀ call ∈ earlier, call.trace?.isSome = true) ∧ last.trace? = none) ∧
    (∀ count, ((walk.calls count tape).filterMap Call.trace?).length ≤ most) ∧
    (size ≤ 0 → walk.next tape = ⟨.ok none, walk.finish, tape⟩) ∧
    (∀ wanted, ∃ calls ≤ most + 1, ∃ run, walk.Loops calls wanted tape run ∧
      (iterate wanted).apply walk tape =
        (.ofTraces (run.traces.map some) run.failure?, run.walk, run.tape) ∧
      (∀ limit : Option Int, limit.map Int.toNat = wanted → (tabulate limit).apply walk tape =
        (.ofAnswer (run.table.map .table), run.walk, run.tape)) ∧
      (wanted = none → summarize.apply walk tape =
        (.ofAnswer (run.summary.map .summary), run.walk, run.tape))) ∧
    (∀ handling : Handling, handling.givesUp = false →
      let recorded := handling.apply walk (.ofTape tape)
      let plain := handling.apply walk tape
      recorded.1 = plain.1 ∧ recorded.2.1 = plain.2.1 ∧ recorded.2.2.1 = plain.2.2 ∧
        (Recorded.ofTape tape).Spends 3 2 recorded.2.2) ∧
    ∀ config,
      let recorded := Segy.extract config (.ofTape tape)
      let plain := Segy.extract config tape
      recorded.1 = plain.1 ∧ recorded.2.1 = plain.2 ∧
        (Recorded.ofTape tape).Spends 3 5 recorded.2 := by
  intro size most
  have hfresh := fresh_start hstart
  have hmost : walk.mostTraces tape = most := by rw [mostTraces, hfresh.layout]
  refine ⟨?_, fun count => ?_, fun hsize => ?_, fun wanted => ?_, fun handling hkeeps => ?_,
    fun config => ?_⟩
  · obtain ⟨calls, hcalls, hloops⟩ := exists_loops none walk tape
    obtain ⟨count, earlier, last, rfl, hends⟩ := hloops.calls_eq
    exact ⟨count, by omega, earlier, last, hends⟩
  · exact hmost ▸ length_traces_calls_le count walk tape
  · exact next_of_readSize_le_zero (hfresh.layout ▸ hsize) hfresh.isOver tape
  · obtain ⟨calls, hcalls, hloops⟩ := exists_loops wanted walk tape
    refine ⟨calls, hmost ▸ hcalls, _, hloops, rfl, ?_, ?_⟩
    · rintro limit rfl
      rw [apply, tabulate_eq]
    · rintro rfl
      rw [apply, summarize_eq]
  · obtain ⟨houtcome, hwalk, hleft⟩ := handling.agree_apply_ofTape walk tape
    exact ⟨houtcome, hwalk, hleft, spends_apply hkeeps walk _⟩
  · obtain ⟨hanswer, hleft⟩ := Segy.agree_extract Recorded.matching_erases config
      (rfl : Recorded.Erases (.ofTape tape) tape)
    exact ⟨hanswer, hleft, Segy.spends_extract config _⟩

/-- Header blocks of less than no bytes. -/
def blockless : Layout where
  name := "blockless"
  fields := []
  blockSize := some (-4)
  names_nodup := by decide
  stop_le_blockSize := by decide

theorem Handling.apply_ends_blockless :
    let blank := Options.fresh { format := .integer1, fixed := some 1 } .int8 ⟨blockless, .usAscii⟩
    let tape := Tape.ofBytes (RawTrace.region oneSampleThenNone) (some 1) [8]
    Walk.start blockless { format := .integer1, fixed := some 1 } = .ok blank ∧
      blank.next tape = ⟨.ok none, blank.finish, tape⟩ ∧
      Walk.start countAndText textOptions = .ok textWalk ∧
      ∃ calls ≤ 3, ∃ run, textWalk.Loops calls none tape run := by
  intro blank tape
  have hblank : Walk.start blockless { format := .integer1, fixed := some 1 } = .ok blank := rfl
  have htext : Walk.start countAndText textOptions = .ok textWalk := rfl
  obtain ⟨-, -, hfirst, -⟩ := apply_ends hblank tape
  obtain ⟨-, -, -, hloops, -⟩ := apply_ends htext tape
  obtain ⟨calls, hcalls, run, hrun, -⟩ := hloops none
  have hmost : tape.unread.length / countAndText.readSize.toNat = 2 := by decide
  rw [hmost] at hcalls
  exact ⟨hblank, hfirst (by decide), htext, calls, hcalls, run, hrun⟩

end SeisLog
