import SeisLog.Deck
import SeisLog.Proofs.Aggregate
import SeisLog.Proofs.Region.Unhindered
import SeisLog.Proofs.Samples

/-!
# Summaries and tables

A summary and a table of the same walk come from the same run. They stop for the same reason, have
as many rows as traces, and the extremes of the one are those in the columns of the other
(`Handling.summarize_tabulate`).
-/

namespace SeisLog

namespace Walk

variable {wanted : Option ℕ} {walk : Walk} {tape : Tape}

/-- All traces of a run show the walk that was run. -/
theorem yielded_run : ∀ trace ∈ (walk.run wanted tape).traces, walk.Yielded trace := by
  induction wanted, walk, tape using run_induct with
  | stopped => nofun
  | failed => nofun
  | ended => nofun
  | yielded wanted walk tape first hw ha rest ih =>
      intro trace htrace
      rcases List.mem_cons.mp htrace with rfl | htrace
      · exact yielded_of_next ha
      · obtain ⟨_, -, hdoes⟩ := next_does walk tape
        obtain ⟨hdecoder, hrule⟩ := hdoes.keeps
        obtain ⟨hheader, hcount⟩ := ih trace htrace
        rw [hdecoder] at hheader
        rw [hrule] at hcount
        exact ⟨hheader, hcount⟩

theorem indices_run {layout : Layout} {options : Options}
    (hstart : start layout options = .ok walk) :
    (walk.run wanted tape).traces.map Trace.index =
      List.range (walk.run wanted tape).traces.length := by
  have hindices := (Session.sound_run hstart tape wanted).indices
  have hlength := congrArg List.length hindices
  rw [List.length_map, List.length_range] at hlength
  rw [← hlength] at hindices
  exact hindices

theorem Yielded.names {layout : Layout} {options : Options}
    (hstart : start layout options = .ok walk) {trace : Trace} (h : walk.Yielded trace) :
    trace.header.names = layout.fieldNames := by
  obtain ⟨block, hblock⟩ := h.header
  obtain ⟨_, decoder, -, -, -, hdecoder, rfl⟩ := start_eq_ok_iff.mp hstart
  have hdecode : layout.decode options.charset block = .ok trace.header := by
    rw [Layout.decode, hdecoder]
    exact hblock
  obtain ⟨hsize, charset, -, hheader⟩ := Layout.decode_eq_ok_iff.mp hdecode
  rw [hheader]
  exact (Decoder.shows_header hsize).names

end Walk

def Row.computedNames : List String := ["n_samples", "sample_min", "sample_max"]

def Trace.computed (trace : Trace) : Fields Value := [
  ("n_samples", .integer trace.samples.length),
  ("sample_min", .real trace.least),
  ("sample_max", .real trace.greatest)]

theorem Trace.nodup_names_computed (trace : Trace) : trace.computed.names.Nodup :=
  show Row.computedNames.Nodup by decide

namespace Row

/-- The columns of every row whose header has the given names. A name that is also computed keeps
its place. -/
def columns (headerNames : List String) : List String :=
  headerNames ++ computedNames.filter (· ∉ headerNames)

/-- The row of a trace: under the name of a computed column the computed value, under the others
the value of the header. -/
structure Tells (headerNames : List String) (trace : Trace) (row : Row) : Prop where
  index : row.index = trace.index
  names : row.values.names = columns headerNames
  computed : ∀ name value, (name, value) ∈ trace.computed → row.values.get? name = some value
  header : ∀ name ∈ headerNames, name ∉ computedNames →
    row.values.get? name = trace.header.get? name

/-- The row is that of a trace with samples. -/
def HasSamples (row : Row) : Prop :=
  ∃ count : ℤ, row.values.get? "n_samples" = some (.integer count) ∧ 0 < count

end Row

namespace Table

/-- The extreme is the value of a column in some row with samples, and `before` its values in all
of them; it is there if there are rows with samples. -/
structure IsExtreme (rows : List Row) (column : String) (before : Binary64 → Binary64 → Prop)
    (extreme? : Option Binary64) : Prop where
  eq_none : extreme? = none ↔ ∀ row ∈ rows, ¬ row.HasSamples
  mem : ∀ x, extreme? = some x →
    ∃ row ∈ rows, row.HasSamples ∧ row.values.get? column = some (.real x)
  before : ∀ x, extreme? = some x → ∀ row ∈ rows, row.HasSamples →
    ∀ y, row.values.get? column = some (.real y) → before x y

/-- A table and a summary of the same traces. -/
structure Agrees (headerNames : List String) (traces : List Trace) (table : Table)
    (summary : Summary) : Prop where
  count : (table.rows.length : ℤ) = summary.count
  indices : table.rows.map Row.index = List.range table.rows.length
  incomplete : table.incomplete = summary.error
  complete : table.incomplete = none ↔ summary.isComplete = true
  rows : List.Forall₂ (Row.Tells headerNames) traces table.rows
  columns : ∀ row ∈ table.rows, row.values.names = Row.columns headerNames
  least : Summary.Numeric (traces.flatMap Trace.samples) →
    IsExtreme table.rows "sample_min" (fun x y => x.number ≤ y.number) summary.least
  greatest : Summary.Numeric (traces.flatMap Trace.samples) →
    IsExtreme table.rows "sample_max" (fun x y => y.number ≤ x.number) summary.greatest

variable {traces : List Trace} {headerNames : List String}

theorem tells_row {trace : Trace} (h : trace.header.names = headerNames) :
    Row.Tells headerNames trace (row trace) where
  index := rfl
  names := by
    show (trace.header.values.setAll trace.computed).names = _
    rw [Fields.names_setAll trace.nodup_names_computed]
    show trace.header.names ++ Row.computedNames.filter (· ∉ trace.header.names) = _
    rw [h, Row.columns]
  computed name value hmem := Fields.get?_setAll_of_mem trace.nodup_names_computed hmem
  header name _ hname := Fields.get?_setAll_of_not_mem hname

theorem hasSamples_row (trace : Trace) : (row trace).HasSamples ↔ trace.samples ≠ [] := by
  have htells : Row.Tells trace.header.names trace (row trace) := tells_row rfl
  have hcount := htells.computed "n_samples" _ List.mem_cons_self
  unfold Row.HasSamples
  rw [hcount, ← List.length_pos_iff]
  simp

/-- Where no sample is NaN, the extreme over all samples is that of the column with the extreme of
each trace. -/
theorem isExtreme_rows {α : Type} [LinearOrder α] {rank : Binary64 → α}
    {beyond : Binary64 → Binary64 → Bool} (h : Binary64.Ranks beyond rank)
    (hnumeric : Summary.Numeric (traces.flatMap Trace.samples)) {column : String}
    (hcolumn : ∀ trace, (row trace).values.get? column = some (.real
      ((Binary64.extreme? (Binary64.pick beyond) trace.samples).getD Binary64.zero))) :
    IsExtreme (traces.map row) column (fun x y => rank x ≤ rank y)
      (Summary.extreme? (Binary64.pick beyond) beyond (traces.map Trace.samples)) := by
  rw [List.flatMap_def] at hnumeric
  refine ⟨?_, ?_, ?_⟩
  · rw [Summary.extreme?_eq_none, List.flatten_eq_nil_iff, List.forall_mem_map, List.forall_mem_map]
    simp only [hasSamples_row, ne_eq, not_not]
  · intro x hx
    obtain ⟨group, hgroup, htop⟩ := Summary.exists_group_of_extreme? h hx
    obtain ⟨trace, htrace, rfl⟩ := List.mem_map.mp hgroup
    refine ⟨row trace, List.mem_map_of_mem htrace, ?_, ?_⟩
    · rw [hasSamples_row]
      intro hnil
      rw [hnil] at htop
      cases htop
    · rw [hcolumn, htop, Option.getD_some]
  · intro x hx other hother hsamples y hy
    obtain ⟨trace, htrace, rfl⟩ := List.mem_map.mp hother
    obtain ⟨first, hfirst⟩ := List.exists_mem_of_ne_nil _ ((hasSamples_row trace).mp hsamples)
    obtain ⟨top, htop⟩ := Summary.exists_extreme? (Binary64.pick beyond) hfirst
    rw [hcolumn, htop, Option.getD_some] at hy
    obtain rfl : top = y := by
      cases hy
      rfl
    refine (Summary.mem_and_rank_le_of_extreme? h hnumeric hx).2 top ?_
    exact List.mem_flatten.mpr
      ⟨trace.samples, List.mem_map_of_mem htrace, (Binary64.chooses_pick h).mem htop⟩

theorem agrees_ofTraces (hnames : ∀ trace ∈ traces, trace.header.names = headerNames)
    (hindices : traces.map Trace.index = List.range traces.length)
    (interruption? : Option Interruption) :
    (ofTraces traces interruption?).Agrees headerNames traces
      (Summary.ofTraces traces interruption?) := by
  have hrows : List.Forall₂ (Row.Tells headerNames) traces (traces.map row) := by
    rw [List.forall₂_map_right_iff, List.forall₂_same]
    intro trace htrace
    exact tells_row (hnames trace htrace)
  rw [Summary.ofTraces_eq]
  refine ⟨?_, ?_, rfl, ?_, hrows, ?_, ?_, ?_⟩
  · rw [ofTraces, List.length_map]
  · rw [ofTraces, List.length_map, List.map_map]
    exact hindices
  · cases interruption? <;> simp [ofTraces]
  · intro other hother
    obtain ⟨trace, htrace, rfl⟩ := List.mem_map.mp hother
    exact (tells_row (hnames trace htrace)).names
  · intro hnumeric
    refine isExtreme_rows Binary64.ranks_lt hnumeric fun trace => ?_
    exact (tells_row rfl).computed "sample_min" _ (List.mem_cons_of_mem _ List.mem_cons_self)
  · intro hnumeric
    refine isExtreme_rows Binary64.ranks_gt hnumeric fun trace => ?_
    exact (tells_row rfl).computed "sample_max" _
      (List.mem_cons_of_mem _ (List.mem_cons_of_mem _ List.mem_cons_self))

end Table

namespace Run

/-- A cut interrupts a run, and no other failure does. -/
theorem interruption?_eq_error {run : Run Tape} {failure : Failure}
    (h : run.interruption? = .error failure) : ∀ cut, failure ≠ .trace cut := by
  rintro cut rfl
  unfold interruption? at h
  split at h
  · cases h
  · cases h
  · rename_i hother _
    cases h
    exact hother cut rfl

end Run

/-- A summary and an unlimited table of the same fresh walk leave the same walk and the same tape.
Either both fail, for the same reason and not at a cut, or they agree. -/
theorem Handling.summarize_tabulate {layout : Layout} {options : Walk.Options} {walk : Walk}
    (hstart : Walk.start layout options = .ok walk) (tape : Tape) :
    let run := walk.run none tape
    let summarized := Handling.summarize.apply walk tape
    let tabulated := (Handling.tabulate none).apply walk tape
    summarized.2 = (run.walk, run.tape) ∧ tabulated.2 = (run.walk, run.tape) ∧
    ((∃ failure, (∀ cut, failure ≠ .trace cut) ∧
        summarized.1 = .ofAnswer (.error failure) ∧ tabulated.1 = .ofAnswer (.error failure)) ∨
      ∃ summary table, summarized.1 = .ofAnswer (.ok (.summary summary)) ∧
        tabulated.1 = .ofAnswer (.ok (.table table)) ∧
        table.Agrees layout.fieldNames run.traces summary) := by
  intro run summarized tabulated
  have hsummarized : summarized = (.ofAnswer (run.summary.map .summary), run.walk, run.tape) := by
    show Handling.summarize.apply walk tape = _
    rw [apply, Walk.summarize_eq]
  have htabulated : tabulated = (.ofAnswer (run.table.map .table), run.walk, run.tape) := by
    show (Handling.tabulate none).apply walk tape = _
    rw [apply, Walk.tabulate_eq]
    rfl
  rw [hsummarized, htabulated]
  refine ⟨rfl, rfl, ?_⟩
  dsimp only
  rw [Run.summary, Run.table]
  cases hinterruption : run.interruption? with
  | error failure => exact .inl ⟨failure, Run.interruption?_eq_error hinterruption, rfl, rfl⟩
  | ok interruption? =>
      refine .inr ⟨_, _, rfl, rfl, ?_⟩
      exact Table.agrees_ofTraces
        (fun trace htrace => (Walk.yielded_run trace htrace).names hstart)
        (Walk.indices_run hstart) interruption?

/-- Blocks of three bytes, whose one field has the name of a computed column. -/
def leastOnly : Layout where
  name := "least_only"
  fields := [⟨"sample_min", ⟨1, 3, by decide⟩, .int16, by decide, by decide⟩]
  blockSize := none
  names_nodup := by decide
  stop_le_blockSize := by decide

def oneByteEach : Walk.Options where
  format := .integer1
  fixed := some 1

theorem Handling.summarize_tabulate_leastOnly :
    let walk := oneByteEach.fresh .int8 ⟨leastOnly, .usAscii⟩
    let tape := Tape.ofBytes [1, 0, 7, 5, 1, 0, 9, 250] none []
    Walk.start leastOnly oneByteEach = .ok walk ∧ ∃ summary table,
      (Handling.summarize.apply walk tape).1 = .ofAnswer (.ok (.summary summary)) ∧
      ((Handling.tabulate none).apply walk tape).1 = .ofAnswer (.ok (.table table)) ∧
      table.rows.length = 2 ∧
      ∀ row ∈ table.rows, row.values.names = ["sample_min", "n_samples", "sample_max"] := by
  intro walk tape
  let raws : List RawTrace := [⟨[1, 0, 7], [5]⟩, ⟨[1, 0, 9], [250]⟩]
  have hstart : Walk.start leastOnly oneByteEach = .ok walk := rfl
  have hfollows : walk.Follows (oneByteEach.frame .int8 ⟨leastOnly, .usAscii⟩) :=
    Walk.follows_fresh (by decide) nofun rfl
  have hrow := @Walk.row_of_region leastOnly oneByteEach .int8 ⟨leastOnly, .usAscii⟩ raws rfl
    (by decide) (by decide) (by decide)
  have hrun := hfollows.run_of_row_nil rfl
    (.of_steady (Tape.steady_ofBytes [1, 0, 7, 5, 1, 0, 9, 250] (show none ≠ some 0 by decide)) _)
    hrow
  obtain ⟨-, -, ⟨failure, -, hfailed, -⟩ | ⟨summary, table, hsummary, htable, hagrees⟩⟩ :=
    Handling.summarize_tabulate hstart tape
  · rw [apply, Walk.summarize_eq, hrun] at hfailed
    cases hfailed
  · refine ⟨hstart, summary, table, hsummary, htable, ?_, hagrees.columns⟩
    rw [← hagrees.rows.length_eq, hrun]
    rfl

end SeisLog
