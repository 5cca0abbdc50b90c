import SeisLog.Proofs.Table

/-!
# Caps and limits

A run with a limit is the front of the run without one, and another run goes on where it stopped
(`run_add`). A walk with a cap makes the run with that limit, and ends where it stops
(`run_withCap`). So caps and limits cut a walk between two traces, and tables of one walk taken one
after another are the parts of one table (`capped_and_limited`).
-/

namespace SeisLog

/-- A run, and behind it another one that went on where it stopped. -/
def Run.followedBy (first later : Run Tape) : Run Tape :=
  { later with traces := first.traces ++ later.traces }

def Trace.endOf (traces : List Trace) : Int := (traces.getLast?.map Trace.consumed).getD 0

namespace Walk

variable {walk : Walk} {tape : Tape}

/-- A run that stops short of its limit stops for good; any other can be gone on with. -/
theorem run_add (count : Nat) (wanted : Option Nat) (walk : Walk) (tape : Tape) :
    walk.run (wanted.map (count + ·)) tape =
      let first := walk.run (some count) tape
      if first.traces.length < count then first
      else first.followedBy (first.walk.run wanted first.tape) := by
  induction count generalizing walk tape with
  | zero =>
      have hwanted : wanted.map (0 + ·) = wanted := by cases wanted <;> simp
      rw [hwanted, run_zero]
      rfl
  | succ count ih =>
      have hmore : wanted.map (count + 1 + ·) ≠ some 0 := by cases wanted <;> simp
      have hless : (wanted.map (count + 1 + ·)).map (· - 1) = wanted.map (count + ·) := by
        cases wanted with
        | none => rfl
        | some wanted =>
            simp only [Option.map_some, Option.some.injEq]
            omega
      have hone : some (count + 1) ≠ some 0 := by simp
      cases hn : walk.next tape with
      | mk answer after left =>
          cases answer with
          | error failure =>
              rw [run_of_error hmore hn, run_of_error hone hn]
              exact (if_pos (Nat.succ_pos count)).symm
          | ok trace? =>
              cases trace? with
              | none =>
                  rw [run_of_end hmore hn, run_of_end hone hn]
                  exact (if_pos (Nat.succ_pos count)).symm
              | some trace =>
                  have hrest := ih after left
                  rw [run_of_trace hmore hn, run_succ_of_trace count hn, hless, hrest]
                  dsimp only
                  by_cases hlt : (after.run (some count) left).traces.length < count
                  · rw [if_pos hlt]
                    exact (if_pos (Nat.succ_lt_succ hlt)).symm
                  · rw [if_neg hlt]
                    exact (if_neg fun h => hlt (Nat.lt_of_succ_lt_succ h)).symm

theorem length_run_le (count : Nat) (walk : Walk) (tape : Tape) :
    (walk.run (some count) tape).traces.length ≤ count := by
  induction count generalizing walk tape with
  | zero =>
      rw [run_zero]
      exact Nat.le_refl 0
  | succ count ih =>
      rw [run_eq (by simp)]
      dsimp only
      split
      · exact Nat.zero_le _
      · exact Nat.zero_le _
      · exact Nat.succ_le_succ (ih _ _)

theorem failure?_of_reached {count : Nat}
    (h : ¬ (walk.run (some count) tape).traces.length < count) :
    (walk.run (some count) tape).failure? = none := by
  induction count generalizing walk tape with
  | zero => rw [run_zero]
  | succ count ih =>
      rw [run_eq (by simp)] at h ⊢
      dsimp only at h ⊢
      split at h
      · exact absurd (Nat.succ_pos count) h
      · rfl
      · refine ih fun hlt => h ?_
        exact Nat.succ_lt_succ hlt

/-- A limited run is the whole run, if that has fewer traces; else it has the first of them. -/
theorem run_limited (count : Nat) (walk : Walk) (tape : Tape) :
    let whole := walk.run none tape
    let limited := walk.run (some count) tape
    limited.traces = whole.traces.take count ∧
      (whole.traces.length < count → limited = whole) ∧
      (count ≤ whole.traces.length → limited.failure? = none) := by
  intro whole limited
  have hle : limited.traces.length ≤ count := length_run_le count walk tape
  have hadd : whole = if limited.traces.length < count then limited
      else limited.followedBy (limited.walk.run none limited.tape) := run_add count none walk tape
  by_cases hlt : limited.traces.length < count
  · rw [if_pos hlt] at hadd
    rw [hadd]
    exact ⟨(List.take_of_length_le hle).symm, fun _ => rfl, fun hc => absurd hlt (by omega)⟩
  · rw [if_neg hlt] at hadd
    have htraces : whole.traces =
        limited.traces ++ (limited.walk.run none limited.tape).traces := congrArg Run.traces hadd
    have hlength : limited.traces.length = count := by omega
    refine ⟨?_, fun hc => ?_, fun _ => failure?_of_reached hlt⟩
    · rw [htraces, ← hlength, List.take_left]
    · rw [htraces, List.length_append] at hc
      omega

def withCap (cap : Option Nat) (walk : Walk) : Walk := { walk with cap }

def Step.withCap (cap : Option Nat) (step : Step Tape) : Step Tape :=
  { step with walk := step.walk.withCap cap }

section

variable (cap : Option Nat)

theorem fail_withCap (walk : Walk) (cut : TraceCut) (tape : Tape) :
    (walk.withCap cap).fail cut tape = (walk.fail cut tape).withCap cap := by
  unfold fail
  split <;> rfl

theorem ofSamples_withCap (walk : Walk) (header : Header) (size : Nat) (block : Bytes)
    (tape : Tape) :
    (walk.withCap cap).ofSamples header size block tape =
      (walk.ofSamples header size block tape).withCap cap := by
  have hadvance : (walk.withCap cap).advance block = (walk.advance block).withCap cap := rfl
  have hcoding : ((walk.advance block).withCap cap).coding = walk.coding := rfl
  unfold ofSamples
  dsimp only
  rw [hadvance, hcoding]
  split
  · exact fail_withCap cap (walk.advance block) _ tape
  · have hunpack : (walk.advance block).coding.unpack block = walk.coding.unpack block := rfl
    rw [hunpack]
    cases walk.coding.unpack block <;> rfl

theorem readSamples_withCap (walk : Walk) (header : Header) (count : Nat) (tape : Tape) :
    (walk.withCap cap).readSamples header count tape =
      (walk.readSamples header count tape).withCap cap := by
  have hcoding : (walk.withCap cap).coding = walk.coding := rfl
  unfold readSamples
  rw [hcoding]
  dsimp only
  split
  · rfl
  · exact ofSamples_withCap cap walk header _ _ _

theorem ofHeader_withCap (walk : Walk) (size : Nat) (block : Bytes) (tape : Tape) :
    (walk.withCap cap).ofHeader size block tape = (walk.ofHeader size block tape).withCap cap := by
  have hadvance : (walk.withCap cap).advance block = (walk.advance block).withCap cap := rfl
  have hdecoder : ((walk.advance block).withCap cap).decoder = (walk.advance block).decoder := rfl
  have hrule : ((walk.advance block).withCap cap).rule = (walk.advance block).rule := rfl
  unfold ofHeader
  dsimp only
  rw [hadvance, hdecoder, hrule]
  split
  · exact fail_withCap cap (walk.advance block) _ tape
  · cases (walk.advance block).decoder.decode block with
    | error failure => rfl
    | ok header =>
        dsimp only
        cases (walk.advance block).rule.count header with
        | error fault => rfl
        | ok count => exact readSamples_withCap cap (walk.advance block) header count tape

theorem next_withCap {walk : Walk} (hcap : walk.atCap = false)
    (hother : (walk.withCap cap).atCap = false) (tape : Tape) :
    (walk.withCap cap).next tape = (walk.next tape).withCap cap := by
  have hover : (walk.withCap cap).isOver = walk.isOver := rfl
  have hdecoder : (walk.withCap cap).decoder = walk.decoder := rfl
  unfold next
  rw [hcap, hother, hover, hdecoder]
  dsimp only
  split
  · rfl
  · simp only [Bool.false_eq_true, if_false]
    split
    · rfl
    · rfl
    · exact ofHeader_withCap cap walk _ _ _

end

theorem atCap_of_none (hcap : walk.cap = none) : walk.atCap = false := by
  rw [atCap, hcap]
  rfl

/-- A walk with a cap makes the run that the cap allows, and is over where that run was stopped. -/
theorem run_withCap (count : Nat) {walk : Walk} (hcap : walk.cap = none)
    (hopen : walk.isOver = false) (tape : Tape) :
    let cap := some (walk.traces + count)
    let limited := walk.run (some count) tape
    (walk.withCap cap).run none tape =
      if limited.traces.length < count then
        { limited with walk := limited.walk.withCap cap }
      else { limited with walk := (limited.walk.withCap cap).finish } := by
  have hnone : (none : Option Nat) ≠ some 0 := by simp
  induction count generalizing walk tape with
  | zero =>
      intro cap limited
      have hnext : (walk.withCap cap).next tape =
          ⟨.ok none, (walk.withCap cap).finish, tape⟩ := by
        have hover : (walk.withCap cap).isOver = false := hopen
        have hatCap : (walk.withCap cap).atCap = true := by simp [atCap, withCap, cap]
        rw [next, hover, hatCap]
        rfl
      rw [run_of_end hnone hnext, show limited = _ from run_zero walk tape]
      rfl
  | succ count ih =>
      intro cap limited
      have hone : some (count + 1) ≠ some 0 := by simp
      have hbelow : (walk.withCap cap).atCap = false := by simp [atCap, withCap, cap]
      have hnext := next_withCap cap (atCap_of_none hcap) hbelow tape
      obtain ⟨read, -, hdoes⟩ := next_does walk tape
      cases hn : walk.next tape with
      | mk answer after left =>
          rw [hn] at hnext hdoes
          cases answer with
          | error failure =>
              have hlimited : limited = ⟨[], some failure, after, left⟩ := run_of_error hone hn
              rw [run_of_error hnone hnext, hlimited]
              exact (if_pos (Nat.succ_pos count)).symm
          | ok trace? =>
              cases trace? with
              | none =>
                  have hlimited : limited = ⟨[], none, after, left⟩ := run_of_end hone hn
                  rw [run_of_end hnone hnext, hlimited]
                  exact (if_pos (Nat.succ_pos count)).symm
              | some trace =>
                  have hlimited : limited = { after.run (some count) left with
                      traces := trace :: (after.run (some count) left).traces } :=
                    run_succ_of_trace count hn
                  have htraces : after.traces + count = walk.traces + (count + 1) := by
                    cases hdoes
                    dsimp only
                    omega
                  have hrest := ih (hdoes.cap.trans hcap) (by cases hdoes; rfl) left
                  dsimp only at hrest
                  rw [htraces] at hrest
                  rw [run_of_trace hnone hnext, hlimited]
                  dsimp only [Option.map_none, Step.withCap] at hrest ⊢
                  rw [hrest]
                  by_cases hlt : (after.run (some count) left).traces.length < count
                  · rw [if_pos hlt]
                    exact (if_pos (Nat.succ_lt_succ hlt)).symm
                  · rw [if_neg hlt]
                    exact (if_neg fun h => hlt (Nat.lt_of_succ_lt_succ h)).symm

theorem run_of_isOver (h : walk.isOver = true) (wanted : Option Nat) (tape : Tape) :
    walk.run wanted tape = ⟨[], none, walk, tape⟩ := by
  by_cases hw : wanted = some 0
  · rw [hw, run_zero]
  · exact run_of_end hw (next_of_isOver h tape)

/-- If a run leaves its walk over, it ended well or raised a cut. -/
theorem failure?_of_isOver {wanted : Option Nat} (h : (walk.run wanted tape).walk.isOver = true) :
    (walk.run wanted tape).failure? = none ∨
      ∃ cut, (walk.run wanted tape).failure? = some (.trace cut) := by
  induction wanted, walk, tape using run_induct with
  | stopped => exact .inl rfl
  | failed wanted walk tape failure hw ha =>
      obtain ⟨read, -, hdoes⟩ := next_does walk tape
      rw [ha] at hdoes
      dsimp only at h
      generalize (walk.next tape).walk = after at h hdoes
      cases hdoes with
      | cut cut => exact .inr ⟨cut, rfl⟩
      | refused failure ho hf =>
          have hstays : walk.isOver = true := h
          rw [ho] at hstays
          cases hstays
  | ended => exact .inl rfl
  | yielded wanted walk tape trace hw ha rest ih => exact ih h

section

variable {layout : Layout} {options : Options} (hstart : start layout options = .ok walk)
  {wanted : Option Nat}

include hstart

theorem interruption?_of_isOver (h : (walk.run wanted tape).walk.isOver = true) :
    (walk.run wanted tape).interruption? =
      .ok ((walk.run wanted tape).walk.error.map TraceCut.interruption) := by
  have hraised := (Session.sound_run hstart tape wanted).raised
  have hfailures : ((Session.start walk tape).after (walk.run wanted tape)).failures =
      (walk.run wanted tape).failure?.toList := rfl
  have hwalk : ((Session.start walk tape).after (walk.run wanted tape)).walk =
      (walk.run wanted tape).walk := rfl
  rw [hfailures, hwalk] at hraised
  unfold Run.interruption?
  rcases failure?_of_isOver h with hnone | ⟨cut, hcut⟩
  · rw [hnone] at hraised ⊢
    have hkept : (walk.run wanted tape).walk.error = none :=
      Option.toList_eq_nil_iff.mp hraised.symm
    rw [hkept]
    rfl
  · rw [hcut] at hraised ⊢
    have hkept : (walk.run wanted tape).walk.error = some cut :=
      Option.toList_eq_singleton_iff.mp hraised.symm
    rw [hkept]
    rfl

theorem position_run (h : (walk.run wanted tape).failure? = none) :
    ((walk.run wanted tape).tape.position : Int) =
      tape.position + Trace.endOf (walk.run wanted tape).traces := by
  have hmoved := (Session.sound_run hstart tape wanted).moved
  have hconsumed := consumed_run_of_end h
  rw [(fresh_start hstart).consumed] at hconsumed
  have hposition : (0 : Int) + ((walk.run wanted tape).tape.position - tape.position) =
      (walk.run wanted tape).walk.consumed := hmoved
  have hend : ((walk.run wanted tape).walk.consumed : Int) =
      Trace.endOf (walk.run wanted tape).traces := hconsumed
  omega

theorem start_withCap (cap : Nat) :
    start layout { options with cap := some (cap : Int) } = .ok (walk.withCap (some cap)) := by
  obtain ⟨coding, decoder, hcoding, hcount, -, hdecoder, rfl⟩ := start_eq_ok_iff.mp hstart
  refine start_eq_ok_iff.mpr ⟨coding, decoder, hcoding, hcount, ?_, hdecoder, rfl⟩
  exact decide_eq_false (Int.not_lt.mpr (Int.natCast_nonneg cap))

end

/-- The run of a walk under a cap, told by the run of the walk without one. -/
theorem run_capped {layout : Layout} {options : Options} (hstart : start layout options = .ok walk)
    (hcap : options.cap = none) (cap : Nat) :
    let whole := walk.run none tape
    let run := (walk.withCap (some cap)).run none tape
    run.traces = whole.traces.take cap ∧
      (cap ≤ whole.traces.length → run.failure? = none ∧ run.walk.phase = .exhausted ∧
        (run.tape.position : Int) = tape.position + Trace.endOf (whole.traces.take cap)) ∧
      (cap = 0 → run.tape = tape) ∧
      (whole.traces.length < cap →
        run = { whole with walk := whole.walk.withCap (some cap) }) := by
  intro whole run
  obtain ⟨htraces, hwhole, hreached⟩ := run_limited cap walk tape
  have hfresh := fresh_start hstart
  have hnone : walk.cap = none := by
    rw [hfresh.cap, hcap]
    rfl
  have hrun := run_withCap cap hnone hfresh.isOver tape
  rw [hfresh.traces, Nat.zero_add] at hrun
  have hshort : (walk.run (some cap) tape).traces.length < cap ↔ whole.traces.length < cap := by
    rw [htraces, List.length_take]
    exact min_lt_iff.trans (or_iff_right (Nat.lt_irrefl cap))
  refine ⟨?_, fun hle => ?_, fun hzero => ?_, fun hlt => ?_⟩
  · rw [show run = _ from hrun]
    split <;> exact htraces
  · have hlimited := hreached hle
    rw [show run = _ from hrun, if_neg fun h => Nat.not_lt.mpr hle (hshort.mp h)]
    refine ⟨hlimited, rfl, ?_⟩
    rw [position_run hstart hlimited, htraces]
  · subst hzero
    rw [show run = _ from hrun, if_neg (Nat.not_lt_zero _), run_zero]
  · rw [show run = _ from hrun, if_pos (hshort.mpr hlt), hwhole hlt]

theorem exists_interruption? {layout : Layout} {options : Options}
    (hstart : start layout options = .ok walk)
    (hover : (walk.run none tape).walk.isOver = true) (limit : Nat) :
    ∃ interruption?, (walk.run (some limit) tape).interruption? = .ok interruption? := by
  obtain ⟨-, hwhole, hreached⟩ := run_limited limit walk tape
  by_cases hlt : (walk.run none tape).traces.length < limit
  · rw [hwhole hlt]
    exact ⟨_, interruption?_of_isOver hstart hover⟩
  · refine ⟨none, ?_⟩
    rw [Run.interruption?, hreached (Nat.not_lt.mp hlt)]

/-- A run, and the run that goes on behind it, are the parts of one run: it has the traces of both,
and it is interrupted where one of them is. -/
theorem interruption?_add {a b : Nat} {interruption? : Option Interruption}
    (hover : (walk.run none tape).walk.isOver = true)
    (h : (walk.run (some (a + b)) tape).interruption? = .ok interruption?) :
    let both := walk.run (some (a + b)) tape
    let front := walk.run (some a) tape
    let rest := front.walk.run (some b) front.tape
    front.traces = both.traces.take a ∧ rest.traces = both.traces.drop a ∧
      rest.walk = both.walk ∧ rest.tape = both.tape ∧
      ∃ first? second?, front.interruption? = .ok first? ∧ rest.interruption? = .ok second? ∧
        ((first? = interruption? ∧ second? = none) ∨ (first? = none ∧ second? = interruption?)) := by
  intro both front rest
  have hle : front.traces.length ≤ a := length_run_le a walk tape
  have hadd : both = if front.traces.length < a then front else front.followedBy rest :=
    run_add a (some b) walk tape
  by_cases hlt : front.traces.length < a
  · -- the walk is over behind its first part, and nothing is left for the second
    rw [if_pos hlt] at hadd
    have hended : front.walk.isOver = true := by
      have hwhole : walk.run none tape = front := (run_add a none walk tape).trans (if_pos hlt)
      rwa [hwhole] at hover
    have hrest : rest = ⟨[], none, front.walk, front.tape⟩ := run_of_isOver hended (some b) _
    rw [hrest, hadd]
    refine ⟨(List.take_of_length_le hle).symm, (List.drop_eq_nil_of_le hle).symm, rfl, rfl, ?_⟩
    exact ⟨interruption?, none, hadd ▸ h, rfl, .inl ⟨rfl, rfl⟩⟩
  · rw [if_neg hlt] at hadd
    have hlength : front.traces.length = a := by omega
    have hnone : front.failure? = none := failure?_of_reached hlt
    have htraces : both.traces = front.traces ++ rest.traces := congrArg Run.traces hadd
    have hinterruption : both.interruption? = rest.interruption? := by
      rw [hadd]
      rfl
    refine ⟨?_, ?_, (congrArg Run.walk hadd).symm, (congrArg Run.tape hadd).symm,
      none, interruption?, ?_, ?_, .inr ⟨rfl, rfl⟩⟩
    · rw [htraces, ← hlength, List.take_left]
    · rw [htraces, ← hlength, List.drop_left]
    · rw [Run.interruption?, hnone]
    · rw [← hinterruption]
      exact h

end Walk

namespace Table

/-- Two tables are the parts of a whole one: the front has its first rows, and one of the two has
its mark. -/
structure Splits (whole : Table) (count : Nat) (front rest : Table) : Prop where
  frontRows : front.rows = whole.rows.take count
  restRows : rest.rows = whole.rows.drop count
  incomplete : (front.incomplete = whole.incomplete ∧ rest.incomplete = none) ∨
    (front.incomplete = none ∧ rest.incomplete = whole.incomplete)

end Table

namespace Handling

open Walk

variable {walk : Walk} {tape : Tape}

theorem tabulate_of_interruption? {limit : Nat} {interruption? : Option Interruption}
    (h : (walk.run (some limit) tape).interruption? = .ok interruption?) :
    let run := walk.run (some limit) tape
    (tabulate (some limit)).apply walk tape =
      (.ofAnswer (.ok (.table (Table.ofTraces run.traces interruption?))), run.walk, run.tape) := by
  intro run
  have htable : run.table = .ok (Table.ofTraces run.traces interruption?) := by
    rw [Run.table, h]
    rfl
  rw [apply, Walk.tabulate_eq]
  show (Outcome.ofAnswer (run.table.map .table), run.walk, run.tape) = _
  rw [htable]
  rfl

section

variable {layout : Layout} {options : Walk.Options}
  (hstart : Walk.start layout options = .ok walk)
  (hover : (walk.run none tape).walk.isOver = true)

include hstart hover

theorem tabulate_limited (limit : Nat) :
    let whole := walk.run none tape
    ∃ table after left,
      (tabulate (some limit)).apply walk tape = (.ofAnswer (.ok (.table table)), after, left) ∧
      table.rows = (whole.traces.take limit).map Table.row ∧
      (limit ≤ whole.traces.length → table.incomplete = none ∧
        (left.position : Int) = tape.position + Trace.endOf (whole.traces.take limit)) ∧
      (whole.traces.length < limit →
        table.incomplete = whole.walk.error.map TraceCut.message ∧
          after = whole.walk ∧ left = whole.tape) := by
  intro whole
  obtain ⟨htraces, hwhole, hreached⟩ := run_limited limit walk tape
  obtain ⟨interruption?, hinterruption⟩ := exists_interruption? hstart hover limit
  refine ⟨_, _, _, tabulate_of_interruption? hinterruption, ?_, fun hle => ?_, fun hlt => ?_⟩
  · rw [htraces]
    rfl
  · have hnone := hreached hle
    rw [Run.interruption?, hnone] at hinterruption
    cases hinterruption
    refine ⟨rfl, ?_⟩
    rw [position_run hstart hnone, htraces]
  · rw [hwhole hlt, interruption?_of_isOver hstart hover] at hinterruption
    cases hinterruption
    rw [hwhole hlt]
    refine ⟨?_, rfl, rfl⟩
    show (whole.walk.error.map TraceCut.interruption).map Interruption.message = _
    rw [Option.map_map]
    rfl

/-- Two tables of a walk, one after the other, are the parts of one table. -/
theorem tabulate_add (a b : Nat) :
    ∃ front rest both after left last stop,
      (tabulate (some a)).apply walk tape = (.ofAnswer (.ok (.table front)), after, left) ∧
      (tabulate (some b)).apply after left = (.ofAnswer (.ok (.table rest)), last, stop) ∧
      (tabulate (some (a + b : Nat))).apply walk tape =
        (.ofAnswer (.ok (.table both)), last, stop) ∧
      both.Splits a front rest := by
  obtain ⟨interruption?, hboth⟩ := exists_interruption? hstart hover (a + b)
  obtain ⟨hfront, hrest, hwalk, htape, first?, second?, hfirst, hsecond, hmarks⟩ :=
    interruption?_add hover hboth
  have hjoined := tabulate_of_interruption? hboth
  dsimp only at hjoined
  rw [← hwalk, ← htape] at hjoined
  refine ⟨_, _, _, _, _, _, _, tabulate_of_interruption? hfirst, tabulate_of_interruption? hsecond,
    hjoined, ?_, ?_, ?_⟩
  · rw [hfront]
    exact List.map_take
  · rw [hrest]
    exact List.map_drop
  · rcases hmarks with ⟨rfl, rfl⟩ | ⟨rfl, rfl⟩
    · exact .inl ⟨rfl, rfl⟩
    · exact .inr ⟨rfl, rfl⟩

end

/-- A walk under a cap gives the first traces of the walk without one. It ends well right behind
the last of them, whatever comes next; where the cap is beyond all traces it ends as the walk
without it. A table with a limit has the rows of the same traces, leaves the tape at the same place
and the walk to go on with: two tables of it are the parts of one. -/
theorem capped_and_limited {layout : Layout} {options : Walk.Options} {walk : Walk} {tape : Tape}
    (hstart : Walk.start layout options = .ok walk) (hcap : options.cap = none)
    (hover : (walk.run none tape).walk.isOver = true) :
    let whole := walk.run none tape
    (∀ cap : Nat, ∃ capped,
      Walk.start layout { options with cap := some (cap : Int) } = .ok capped ∧
      let run := capped.run none tape
      run.traces = whole.traces.take cap ∧
      (cap ≤ whole.traces.length → run.failure? = none ∧ run.walk.phase = .exhausted ∧
        (run.tape.position : Int) = tape.position + Trace.endOf (whole.traces.take cap)) ∧
      (cap = 0 → run.tape = tape) ∧
      (whole.traces.length < cap →
        run = { whole with walk := whole.walk.withCap (some cap) })) ∧
    (∀ limit : Nat, ∃ table after left,
      (tabulate (some limit)).apply walk tape = (.ofAnswer (.ok (.table table)), after, left) ∧
      table.rows = (whole.traces.take limit).map Table.row ∧
      (limit ≤ whole.traces.length → table.incomplete = none ∧
        (left.position : Int) = tape.position + Trace.endOf (whole.traces.take limit)) ∧
      (whole.traces.length < limit →
        table.incomplete = whole.walk.error.map TraceCut.message ∧
          after = whole.walk ∧ left = whole.tape)) ∧
    ∀ a b : Nat, ∃ front rest both after left last stop,
      (tabulate (some a)).apply walk tape = (.ofAnswer (.ok (.table front)), after, left) ∧
      (tabulate (some b)).apply after left = (.ofAnswer (.ok (.table rest)), last, stop) ∧
      (tabulate (some (a + b : Nat))).apply walk tape =
        (.ofAnswer (.ok (.table both)), last, stop) ∧
      both.Splits a front rest := by
  intro whole
  refine ⟨fun cap => ?_, tabulate_limited hstart hover, tabulate_add hstart hover⟩
  exact ⟨walk.withCap (some cap), start_withCap hstart cap, run_capped hstart hcap cap⟩

end Handling

/-- Two traces, and the front of a third header block. -/
def Walk.twoThenCut : Tape := .ofBytes (RawTrace.region oneSampleThenNone ++ [0, 1, 2]) none []

open Walk in
theorem Handling.capped_and_limited_twoThenCut :
    let whole := textWalk.run none twoThenCut
    start countAndText textOptions = .ok textWalk ∧ whole.walk.isOver = true ∧
      textOptions.cap = none ∧ whole.traces.length = 2 ∧ whole.failure?.isSome = true ∧
      (∃ capped, start countAndText { textOptions with cap := some (2 : Nat) } = .ok capped ∧
        (capped.run none twoThenCut).failure? = none ∧
        (capped.run none twoThenCut).tape.position = 12) ∧
      ∃ front rest after left last stop,
        (tabulate (some (2 : Nat))).apply textWalk twoThenCut =
          (.ofAnswer (.ok (.table front)), after, left) ∧
        (tabulate (some (1 : Nat))).apply after left =
          (.ofAnswer (.ok (.table rest)), last, stop) ∧
        front.incomplete = none ∧ rest.rows = [] ∧ rest.incomplete.isSome = true := by
  intro whole
  have hstart : start countAndText textOptions = .ok textWalk := rfl
  have hover : whole.walk.isOver = true := by decide +kernel
  have hlength : whole.traces.length = 2 := by decide +kernel
  have hend : Trace.endOf (whole.traces.take 2) = 12 := by decide +kernel
  obtain ⟨hcapped, hlimited, htables⟩ := capped_and_limited hstart rfl hover
  refine ⟨hstart, hover, rfl, hlength, by decide +kernel, ?_, ?_⟩
  · obtain ⟨capped, hcap, -, hwell, -⟩ := hcapped 2
    obtain ⟨hnone, -, hposition⟩ := hwell hlength.ge
    rw [hend] at hposition
    exact ⟨capped, hcap, hnone, Int.ofNat.inj hposition⟩
  · obtain ⟨front, rest, both, after, left, last, stop, hfront, hrest, hboth, hsplits⟩ :=
      htables 2 1
    obtain ⟨_, _, _, htwo, -, hwell, -⟩ := hlimited 2
    obtain ⟨_, _, _, hthree, hrows, -, hmark⟩ := hlimited 3
    cases hfront.symm.trans htwo
    cases hboth.symm.trans hthree
    have hnone : front.incomplete = none := (hwell hlength.ge).1
    have hsome : both.incomplete.isSome = true := by
      rw [(hmark (hlength ▸ Nat.lt_succ_self 2)).1]
      decide +kernel
    refine ⟨front, rest, after, left, last, stop, hfront, hrest, hnone, ?_, ?_⟩
    · rw [hsplits.restRows, hrows]
      refine List.drop_eq_nil_of_le ?_
      rw [List.length_map, List.length_take, hlength]
      decide
    · rcases hsplits.incomplete with ⟨hfirst, -⟩ | ⟨-, hsecond⟩
      · rw [← hfirst, hnone] at hsome
        cases hsome
      · rwa [hsecond]

end SeisLog
