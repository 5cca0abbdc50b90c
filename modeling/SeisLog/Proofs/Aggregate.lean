import SeisLog.Proofs.Order
import SeisLog.Proofs.Session
import SeisLog.Proofs.Summary

/-!
# Summaries as aggregates

The running extremes of a summary are told by the samples alone, not by their traces, as long as no
sample is NaN (`Summary.ofTraces_aggregate`). A NaN hides the other samples of its trace from the
extremes, or takes the place of the extremes where no sample comes before its trace
(`Summary.ofTraces_bounds`).
-/

namespace SeisLog

namespace Summary

open Binary64

def Numeric (group : List Binary64) : Prop := ∀ x ∈ group, x.isNaN = false

/-- The first group that has a sample has a NaN. -/
def Spoilt (groups : List (List Binary64)) : Prop :=
  ∃ earlier group later, groups = earlier ++ group :: later ∧ (∀ other ∈ earlier, other = []) ∧
    ∃ x ∈ group, x.isNaN = true

theorem numeric_iff_any {group : List Binary64} : Numeric group ↔ group.any isNaN = false := by
  simp [Numeric]

theorem not_spoilt {groups : List (List Binary64)} (h : ∀ group ∈ groups, Numeric group) :
    ¬ Spoilt groups := by
  rintro ⟨earlier, group, later, rfl, -, x, hx, hnan⟩
  have hnumber := h group (List.mem_append_right _ List.mem_cons_self) x hx
  rw [hnan] at hnumber
  cases hnumber

theorem numeric_of_flatten {groups : List (List Binary64)} (h : Numeric groups.flatten) :
    ∀ group ∈ groups, Numeric group :=
  fun group hgroup x hx => h x (List.mem_flatten.mpr ⟨group, hgroup, hx⟩)

theorem foldl_widen (beyond : Binary64 → Binary64 → Bool) (running : Binary64)
    (nexts : List (Option Binary64)) :
    nexts.foldl (widen beyond) (some running) =
      some ((nexts.filterMap id).foldl (keep beyond) running) := by
  induction nexts generalizing running with
  | nil => rfl
  | cons next nexts ih =>
      cases next with
      | none => exact ih running
      | some x => exact ih (keep beyond running x)

theorem extreme?_eq (choose : Binary64 → Binary64 → Binary64)
    (beyond : Binary64 → Binary64 → Bool) (groups : List (List Binary64)) :
    extreme? choose beyond groups =
      Binary64.extreme? (keep beyond) (groups.filterMap (Binary64.extreme? choose)) := by
  unfold extreme?
  induction groups with
  | nil => rfl
  | cons group groups ih =>
      cases hgroup : Binary64.extreme? choose group with
      | none =>
          rw [List.map_cons, hgroup, List.filterMap_cons_none hgroup]
          exact ih
      | some top =>
          rw [List.map_cons, hgroup, List.filterMap_cons_some hgroup, List.foldl_cons]
          have hrest : (groups.map (Binary64.extreme? choose)).filterMap id =
              groups.filterMap (Binary64.extreme? choose) := by
            rw [List.filterMap_map]
            rfl
          rw [show widen beyond none (some top) = some top from rfl, foldl_widen, hrest]
          rfl

theorem extreme?_eq_none {choose : Binary64 → Binary64 → Binary64}
    {beyond : Binary64 → Binary64 → Bool} {groups : List (List Binary64)} :
    extreme? choose beyond groups = none ↔ groups.flatten = [] := by
  rw [extreme?_eq, extreme?_eq_none_iff, List.filterMap_eq_nil_iff, List.flatten_eq_nil_iff]
  simp only [extreme?_eq_none_iff]

/-- The extreme that is reported of some groups of samples. Only the groups without a NaN have a say
in it, unless it is NaN itself. -/
structure Extreme (before : Binary64 → Binary64 → Prop) (groups : List (List Binary64))
    (last : Binary64) : Prop where
  isNaN : last.isNaN = true ↔ Spoilt groups
  mem : last.isNaN = false → ∃ group ∈ groups, Numeric group ∧ last ∈ group
  before : last.isNaN = false → ∀ group ∈ groups, Numeric group → ∀ x ∈ group, before last x

section

variable {α : Type} [LinearOrder α] {rank : Binary64 → α} {beyond : Binary64 → Binary64 → Bool}
  {groups : List (List Binary64)} {last : Binary64}

theorem exists_extreme? (choose : Binary64 → Binary64 → Binary64) {group : List Binary64}
    {x : Binary64} (h : x ∈ group) : ∃ top, Binary64.extreme? choose group = some top :=
  Option.ne_none_iff_exists'.mp fun hnone =>
    List.ne_nil_of_mem h (extreme?_eq_none_iff.mp hnone)

theorem isNaN_extreme? (h : Ranks beyond rank)
    (hlast : extreme? (pick beyond) beyond groups = some last) :
    last.isNaN = true ↔ Spoilt groups := by
  rw [extreme?_eq] at hlast
  obtain ⟨first, hfirst, hsame⟩ := isNaN_of_extreme?_keep h hlast
  rw [List.head?_filterMap] at hfirst
  rw [hsame]
  constructor
  · intro hnan
    obtain ⟨earlier, group, later, hgroups, hgroup, hearlier⟩ :=
      List.findSome?_eq_some_iff.mp hfirst
    rw [isNaN_of_extreme?_pick h hgroup, List.any_eq_true] at hnan
    exact ⟨earlier, group, later, hgroups,
      fun other hother => extreme?_eq_none_iff.mp (hearlier other hother), hnan⟩
  · rintro ⟨earlier, group, later, hgroups, hearlier, x, hx, hnan⟩
    obtain ⟨top, htop⟩ := exists_extreme? (pick beyond) hx
    have hfound : groups.findSome? (Binary64.extreme? (pick beyond)) = some top :=
      List.findSome?_eq_some_iff.mpr ⟨earlier, group, later, hgroups, htop,
        fun other hother => extreme?_eq_none_iff.mpr (hearlier other hother)⟩
    obtain rfl : first = top := Option.some.inj (hfirst.symm.trans hfound)
    rw [isNaN_of_extreme?_pick h htop, List.any_eq_true]
    exact ⟨x, hx, hnan⟩

theorem exists_group_of_extreme? (h : Ranks beyond rank)
    (hlast : extreme? (pick beyond) beyond groups = some last) :
    ∃ group ∈ groups, Binary64.extreme? (pick beyond) group = some last := by
  rw [extreme?_eq] at hlast
  exact List.mem_filterMap.mp ((chooses_keep h).mem hlast)

theorem extreme_of_extreme? (h : Ranks beyond rank)
    (hlast : extreme? (pick beyond) beyond groups = some last) :
    Extreme (fun x y => rank x ≤ rank y) groups last := by
  refine ⟨isNaN_extreme? h hlast, ?_, ?_⟩
  · intro hnan
    obtain ⟨group, hgroup, htop⟩ := exists_group_of_extreme? h hlast
    refine ⟨group, hgroup, numeric_iff_any.mpr ?_, (chooses_pick h).mem htop⟩
    rw [← isNaN_of_extreme?_pick h htop, hnan]
  · intro hnan group hgroup hnumeric x hx
    rw [extreme?_eq] at hlast
    obtain ⟨top, htop⟩ := exists_extreme? (pick beyond) hx
    have hnumber : top.isNaN = false := by
      rw [isNaN_of_extreme?_pick h htop, numeric_iff_any.mp hnumeric]
    calc rank last
        ≤ rank top := (chooses_keep h).rank_le hlast hnan top
            (List.mem_filterMap.mpr ⟨group, hgroup, htop⟩) hnumber
      _ ≤ rank x := (chooses_pick h).rank_le htop hnumber x hx (hnumeric x hx)

/-- Without a NaN the groups do not matter: the extreme is that of all samples. -/
theorem mem_and_rank_le_of_extreme? (h : Ranks beyond rank) (hnumeric : Numeric groups.flatten)
    (hlast : extreme? (pick beyond) beyond groups = some last) :
    last ∈ groups.flatten ∧ ∀ x ∈ groups.flatten, rank last ≤ rank x := by
  have hgroups := numeric_of_flatten hnumeric
  have hextreme := extreme_of_extreme? h hlast
  have hnan : last.isNaN = false :=
    Bool.eq_false_iff.mpr fun hnan => not_spoilt hgroups (hextreme.isNaN.mp hnan)
  obtain ⟨group, hgroup, -, hmem⟩ := hextreme.mem hnan
  refine ⟨List.mem_flatten.mpr ⟨group, hgroup, hmem⟩, ?_⟩
  intro x hx
  obtain ⟨other, hother, hmem⟩ := List.mem_flatten.mp hx
  exact hextreme.before hnan other hother (hgroups other hother) x hmem

/-- Without a NaN the same samples have the same extreme, however they are grouped. -/
theorem map_rank_extreme? (h : Ranks beyond rank) (hnumeric : Numeric groups.flatten)
    {others : List (List Binary64)} (hsame : ∀ x, x ∈ others.flatten ↔ x ∈ groups.flatten) :
    (extreme? (pick beyond) beyond others).map rank =
      (extreme? (pick beyond) beyond groups).map rank := by
  have hothers : Numeric others.flatten := fun x hx => hnumeric x ((hsame x).mp hx)
  cases hgroups : extreme? (pick beyond) beyond groups with
  | none =>
      have hnil : others.flatten = [] := by
        rw [List.eq_nil_iff_forall_not_mem]
        intro x hx
        rw [hsame x, extreme?_eq_none.mp hgroups] at hx
        cases hx
      rw [extreme?_eq_none.mpr hnil]
  | some last =>
      obtain ⟨hmem, hle⟩ := mem_and_rank_le_of_extreme? h hnumeric hgroups
      cases hlist : extreme? (pick beyond) beyond others with
      | none =>
          rw [← hsame last, extreme?_eq_none.mp hlist] at hmem
          cases hmem
      | some other =>
          obtain ⟨hother, hleast⟩ := mem_and_rank_le_of_extreme? h hothers hlist
          have hrank : rank other = rank last :=
            le_antisymm (hleast last ((hsame last).mpr hmem)) (hle other ((hsame other).mp hother))
          rw [Option.map_some, Option.map_some, hrank]

theorem extreme?_keep_append (h : Ranks beyond rank) {first second : List Binary64}
    (hfirst : Numeric first) (hsecond : Numeric second) :
    Binary64.extreme? (keep beyond) (first ++ second) =
      widen beyond (Binary64.extreme? (keep beyond) first)
        (Binary64.extreme? (keep beyond) second) := by
  cases first with
  | nil => cases second <;> rfl
  | cons x first =>
      cases second with
      | nil =>
          rw [List.append_nil]
          rfl
      | cons y second =>
          have hlast : Binary64.extreme? (keep beyond) (x :: first) =
              some (first.foldl (keep beyond) x) := rfl
          have hrunning : (first.foldl (keep beyond) x).isNaN = false := by
            obtain ⟨_, hhead, hsame⟩ := isNaN_of_extreme?_keep h hlast
            rw [hsame, ← Option.some.inj hhead]
            exact hfirst x List.mem_cons_self
          obtain ⟨hy, hrest⟩ := List.forall_mem_cons.mp hsecond
          show some ((first ++ y :: second).foldl (keep beyond) x) = _
          rw [List.foldl_append, List.foldl_cons, foldl_keep h hrunning hy hrest]
          rfl

theorem numeric_tops (h : Ranks beyond rank) (hnumeric : Numeric groups.flatten) :
    Numeric (groups.filterMap (Binary64.extreme? (pick beyond))) := by
  intro top htop
  obtain ⟨group, hgroup, hextreme⟩ := List.mem_filterMap.mp htop
  rw [isNaN_of_extreme?_pick h hextreme]
  exact numeric_iff_any.mp (numeric_of_flatten hnumeric group hgroup)

theorem extreme?_append (h : Ranks beyond rank) {first second : List (List Binary64)}
    (hfirst : Numeric first.flatten) (hsecond : Numeric second.flatten) :
    extreme? (pick beyond) beyond (first ++ second) =
      widen beyond (extreme? (pick beyond) beyond first) (extreme? (pick beyond) beyond second) := by
  rw [extreme?_eq, extreme?_eq, extreme?_eq, List.filterMap_append]
  exact extreme?_keep_append h (numeric_tops h hfirst) (numeric_tops h hsecond)

end

/-- The extremes are those of the samples, and they are there where there are samples. -/
structure Spans (summary : Summary) (samples : List Binary64) : Prop where
  least_none : summary.least = none ↔ samples = []
  least : ∀ x, summary.least = some x → x ∈ samples ∧ ∀ y ∈ samples, x.number ≤ y.number
  greatest_none : summary.greatest = none ↔ samples = []
  greatest : ∀ x, summary.greatest = some x → x ∈ samples ∧ ∀ y ∈ samples, y.number ≤ x.number

/-- The extremes are the same numbers; the signs of zeros may differ. -/
structure SameExtremes (summary other : Summary) : Prop where
  least : summary.least.map number = other.least.map number
  greatest : summary.greatest.map number = other.greatest.map number

/-- The summary of some traces and those behind them, from their two summaries. -/
def join (first second : Summary) : Summary where
  count := first.count + second.count
  least := widen Binary64.lt first.least second.least
  greatest := widen (fun x y => y.lt x) first.greatest second.greatest
  isComplete := second.isComplete
  error := second.error
  consumed := if second.count = 0 ∧ second.isComplete then first.consumed else second.consumed

variable {traces others : List Trace}

theorem spans_ofTraces (h : Numeric (traces.flatMap Trace.samples))
    (interruption? : Option Interruption) :
    (ofTraces traces interruption?).Spans (traces.flatMap Trace.samples) := by
  rw [List.flatMap_def] at h ⊢
  rw [ofTraces_eq]
  refine ⟨extreme?_eq_none, ?_, extreme?_eq_none, ?_⟩
  · intro x hx
    exact mem_and_rank_le_of_extreme? ranks_lt h hx
  · intro x hx
    exact mem_and_rank_le_of_extreme? ranks_gt h hx

theorem sameExtremes_ofTraces (h : Numeric (traces.flatMap Trace.samples))
    (hsame : ∀ x, x ∈ others.flatMap Trace.samples ↔ x ∈ traces.flatMap Trace.samples)
    (other? interruption? : Option Interruption) :
    (ofTraces others other?).SameExtremes (ofTraces traces interruption?) := by
  rw [List.flatMap_def] at h
  simp only [List.flatMap_def] at hsame
  rw [ofTraces_eq, ofTraces_eq]
  have hgreatest := map_rank_extreme? ranks_gt h hsame
  refine ⟨map_rank_extreme? ranks_lt h hsame, ?_⟩
  exact hgreatest

theorem ofTraces_append {first second : List Trace}
    (h : Numeric ((first ++ second).flatMap Trace.samples))
    (interruption? : Option Interruption) :
    ofTraces (first ++ second) interruption? =
      (ofTraces first none).join (ofTraces second interruption?) := by
  rw [List.flatMap_append, List.flatMap_def, List.flatMap_def] at h
  obtain ⟨hfirst, hsecond⟩ := List.forall_mem_append.mp h
  rw [ofTraces_eq, ofTraces_eq, ofTraces_eq, join]
  simp only [List.map_append, List.length_append, mk.injEq, lesser_eq_pick, greater_eq_pick]
  refine ⟨Int.natCast_add _ _, extreme?_append ranks_lt hfirst hsecond,
    extreme?_append ranks_gt hfirst hsecond, trivial, trivial, ?_⟩
  cases interruption? with
  | some interruption => simp
  | none =>
      cases second with
      | nil => simp
      | cons trace second =>
          have hcount : (second.length : ℤ) + 1 ≠ 0 := by omega
          simp [List.getLast?_append, List.getLast?_cons, hcount]

end Summary

namespace Walk

variable {wanted : Option ℕ} {walk : Walk} {tape : Tape}

theorem consumed_run_of_end (h : (walk.run wanted tape).failure? = none) :
    ((walk.run wanted tape).walk.consumed : ℤ) =
      ((walk.run wanted tape).traces.getLast?.map Trace.consumed).getD walk.consumed := by
  induction wanted, walk, tape using run_induct with
  | stopped => rfl
  | failed => cases h
  | ended wanted walk tape hw ha =>
      obtain ⟨read, -, hd⟩ := next_does walk tape
      rw [ha] at hd
      generalize (walk.next tape).walk = after at hd ⊢
      cases hd with
      | ended => rfl
      | finished => rfl
  | yielded wanted walk tape trace hw ha rest ih =>
      obtain ⟨read, -, hd⟩ := next_does walk tape
      rw [ha] at hd
      have hend : ((walk.next tape).walk.consumed : ℤ) = trace.consumed := by
        generalize (walk.next tape).walk = after at hd ⊢
        cases hd with
        | yielded => rfl
      rw [ih h, hend, List.getLast?_cons]
      cases rest.traces.getLast? <;> rfl

theorem consumed_summary {layout : Layout} {options : Options}
    (hstart : start layout options = .ok walk) {summary : Summary}
    (h : (walk.run none tape).summary = .ok summary) :
    summary.consumed = (walk.run none tape).walk.consumed := by
  have hfresh : walk.consumed = 0 := by
    obtain ⟨_, _, -, -, -, -, rfl⟩ := start_eq_ok_iff.mp hstart
    rfl
  unfold Run.summary Run.interruption? at h
  split at h
  · rename_i hend
    cases h
    rw [Summary.ofTraces_eq, consumed_run_of_end hend, hfresh]
    rfl
  · rename_i cut hcut
    cases h
    have hsound := Session.sound_run hstart tape none
    have herror : (walk.run none tape).walk.error = some cut :=
      hsound.mem_failures.mp (by simp [Session.after, hcut])
    have hconsumed : cut.consumed = (walk.run none tape).walk.consumed :=
      (hsound.walk.error cut herror).2
    rw [Summary.ofTraces_eq, ← hconsumed]
    rfl
  · cases h

end Walk

namespace Summary

open Binary64

/-- The summary of traces without a NaN tells their number, the least and the greatest of all their
samples, and where and why they ended. It does not depend on their order, nor the extremes on how
the samples are grouped; of two parts of the traces it is the joined summary, and over a fresh walk
it ends where the walk does. -/
theorem ofTraces_aggregate {traces : List Trace} (h : Numeric (traces.flatMap Trace.samples))
    (interruption? : Option Interruption) :
    let summary := ofTraces traces interruption?
    let samples := traces.flatMap Trace.samples
    summary.count = traces.length ∧ summary.Spans samples ∧
    (interruption? = none → summary.isComplete = true ∧ summary.error = none ∧
      summary.consumed = (traces.getLast?.map Trace.consumed).getD 0) ∧
    (∀ interruption, interruption? = some interruption → summary.isComplete = false ∧
      summary.error = some interruption.message ∧
      summary.consumed = interruption.consumed) ∧
    (∀ others other?, others.Perm traces →
      (ofTraces others other?).count = summary.count ∧
      (ofTraces others other?).SameExtremes summary) ∧
    (∀ others other?, (others.flatMap Trace.samples).Perm samples →
      (ofTraces others other?).SameExtremes summary) ∧
    (∀ first second, first ++ second = traces →
      summary = (ofTraces first none).join (ofTraces second interruption?)) ∧
    ∀ layout options walk (tape : Tape), Walk.start layout options = .ok walk →
      let run := walk.run none tape
      run.traces = traces → run.interruption? = .ok interruption? →
        walk.summarize tape = (.ok summary, run.walk, run.tape) ∧
          summary.consumed = run.walk.consumed := by
  intro summary samples
  have hsummary : summary = _ := ofTraces_eq traces interruption?
  refine ⟨by rw [hsummary], spans_ofTraces h interruption?, ?_, ?_, ?_, ?_, ?_, ?_⟩
  · rintro rfl
    rw [hsummary]
    exact ⟨rfl, rfl, rfl⟩
  · rintro interruption rfl
    rw [hsummary]
    exact ⟨rfl, rfl, rfl⟩
  · intro others other? hperm
    refine ⟨?_, sameExtremes_ofTraces h (fun x => ?_) other? interruption?⟩
    · rw [hsummary, ofTraces_eq, hperm.length_eq]
    · exact (hperm.flatMap_right Trace.samples).mem_iff
  · intro others other? hperm
    exact sameExtremes_ofTraces h (fun x => hperm.mem_iff) other? interruption?
  · rintro first second rfl
    exact ofTraces_append h interruption?
  · intro layout options walk tape hstart run htraces hinterruption
    have hrun : run.summary = .ok summary := by
      rw [Run.summary, hinterruption, htraces]
      rfl
    refine ⟨?_, Walk.consumed_summary hstart hrun⟩
    rw [Walk.summarize_eq, hrun]

def bareTrace (index : ℕ) (samples : List Binary64) (consumed : ℤ) : Trace :=
  ⟨index, ⟨"bare", []⟩, samples, consumed⟩

def five : Binary64 := ⟨0x4014000000000000⟩

def minusInfinity : Binary64 := ⟨0xfff0000000000000⟩

theorem ofTraces_aggregate_minusInfinity :
    let first := bareTrace 0 [five, zero] 16
    let rest := [bareTrace 1 [] 16, bareTrace 2 [minusInfinity] 24]
    let summary := ofTraces (first :: rest) none
    summary.count = 3 ∧ summary.isComplete = true ∧ summary.consumed = 24 ∧
      (∃ least, summary.least = some least ∧ least.number = minusInfinity.number) ∧
      summary = (ofTraces [first] none).join (ofTraces rest none) := by
  intro first rest summary
  have hnumeric : Numeric ((first :: rest).flatMap Trace.samples) := by
    unfold Numeric
    decide
  obtain ⟨hcount, hspans, hend, -, -, -, hjoin, -⟩ := ofTraces_aggregate hnumeric none
  obtain ⟨hcomplete, -, hconsumed⟩ := hend rfl
  refine ⟨hcount, hcomplete, hconsumed, ?_, hjoin [first] rest rfl⟩
  cases hleast : summary.least with
  | none => cases hspans.least_none.mp hleast
  | some least =>
      have hle : least.number ≤ minusInfinity.number :=
        (hspans.least least hleast).2 minusInfinity (by decide)
      exact ⟨least, rfl, le_antisymm hle bot_le⟩

/-- An extreme is reported if there are samples. It is NaN if the first trace with samples has a
NaN. Otherwise it is the extreme of the traces without a NaN, and bounds their samples only. -/
theorem ofTraces_bounds (traces : List Trace) (interruption? : Option Interruption) :
    let summary := ofTraces traces interruption?
    let groups := traces.map Trace.samples
    (summary.least = none ↔ groups.flatten = []) ∧
    (summary.greatest = none ↔ groups.flatten = []) ∧
    (∀ least, summary.least = some least →
      Extreme (fun x y => x.number ≤ y.number) groups least) ∧
    ∀ greatest, summary.greatest = some greatest →
      Extreme (fun x y => y.number ≤ x.number) groups greatest := by
  intro summary groups
  have hsummary : summary = _ := ofTraces_eq traces interruption?
  rw [hsummary]
  refine ⟨extreme?_eq_none, extreme?_eq_none, ?_, ?_⟩
  · intro least hleast
    exact extreme_of_extreme? ranks_lt hleast
  · intro greatest hgreatest
    exact extreme_of_extreme? ranks_gt hgreatest

def nan : Binary64 := ⟨0x7ff8000000000000⟩

def one : Binary64 := ⟨0x3ff0000000000000⟩

def nine : Binary64 := ⟨0x4022000000000000⟩

/-- Two traces, the second one with two numbers beside a NaN. -/
def besideNaN : List Trace := [bareTrace 0 [five] 8, bareTrace 1 [nan, one, nine] 32]

theorem ofTraces_bounds_five :
    (ofTraces besideNaN none).least = some five ∧ five.isNaN = false ∧
      Extreme (fun x y => x.number ≤ y.number) (besideNaN.map Trace.samples) five := by
  obtain ⟨-, -, hleast, -⟩ := ofTraces_bounds besideNaN none
  have hfive : (ofTraces besideNaN none).least = some five := by decide +kernel
  exact ⟨hfive, by decide, hleast five hfive⟩

/-- Numbers beside a NaN lie outside the reported extremes. -/
theorem ofTraces_bounds_of_besideNaN :
    let summary := ofTraces besideNaN none
    summary.least = some five ∧ summary.greatest = some five ∧ five.isNaN = false ∧
      (∃ trace ∈ besideNaN, ∃ x ∈ trace.samples, x.isNaN = false ∧ x.number < five.number) ∧
      ∃ trace ∈ besideNaN, ∃ x ∈ trace.samples, x.isNaN = false ∧ five.number < x.number := by
  refine ⟨by decide +kernel, by decide +kernel, by decide, ?_, ?_⟩
  · refine ⟨_, List.mem_cons_of_mem _ List.mem_cons_self, one, by decide, by decide, ?_⟩
    exact (lt_iff_number (by decide) (by decide)).mp (by decide +kernel)
  · refine ⟨_, List.mem_cons_of_mem _ List.mem_cons_self, nine, by decide, by decide, ?_⟩
    exact (lt_iff_number (by decide) (by decide)).mp (by decide +kernel)

end Summary

end SeisLog
