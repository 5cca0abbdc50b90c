import SeisLog.Table

/-!
# Laws of runs

A run is its first call followed by a run with one trace less to come; what was gathered before
stands in front. A summary and a table go through the same calls, so each is a fold of a run
(`summarize_eq`, `tabulate_eq`).
-/

namespace SeisLog

namespace Run

variable {σ : Type}

/-- The cut that ended a run, or nothing after a clean end. -/
def interruption? (run : Run σ) : Except Failure (Option Interruption) :=
  match run.failure? with
  | none => .ok none
  | some (.trace cut) => .ok (some cut.interruption)
  | some failure => .error failure

theorem interruption?_of_failure {run : Run σ} {failure : Failure}
    (h : run.failure? = some failure) (hcut : ∀ cut, failure ≠ .trace cut) :
    run.interruption? = .error failure := by
  unfold interruption?
  rw [h]
  cases failure with
  | trace cut => exact (hcut cut rfl).elim
  | _ => rfl

def summary (run : Run σ) : Except Failure Summary :=
  run.interruption?.map (Summary.ofTraces run.traces)

def table (run : Run σ) : Except Failure Table :=
  run.interruption?.map (Table.ofTraces run.traces)

end Run

namespace Walk

variable {σ : Type} [Medium σ]

theorem runInto_eq (done : List Trace) (wanted : Option Nat) (walk : Walk) (tape : σ) :
    runInto done wanted walk tape =
      { run wanted walk tape with traces := done.reverse ++ (run wanted walk tape).traces } := by
  induction h : Medium.left tape using Nat.strongRecOn generalizing done wanted walk tape with
  | _ n ih =>
      rw [run, runInto, runInto.eq_def []]
      split
      · simp
      · dsimp only
        split
        · simp
        · simp
        · rename_i trace hn
          have hlt := left_lt_of_next hn
          rw [ih _ (h ▸ hlt) (trace :: done) _ _ _ rfl, ih _ (h ▸ hlt) [trace] _ _ _ rfl]
          simp

theorem run_zero (walk : Walk) (tape : σ) : walk.run (some 0) tape = ⟨[], none, walk, tape⟩ := by
  simp [run, runInto]

theorem run_eq {wanted : Option Nat} (hw : wanted ≠ some 0) (walk : Walk) (tape : σ) :
    walk.run wanted tape =
      let step := walk.next tape
      match step.answer with
      | .error failure => ⟨[], some failure, step.walk, step.tape⟩
      | .ok none => ⟨[], none, step.walk, step.tape⟩
      | .ok (some trace) =>
          let rest := step.walk.run (wanted.map (· - 1)) step.tape
          { rest with traces := trace :: rest.traces } := by
  rw [run, runInto, if_neg hw]
  dsimp only
  split
  · rename_i he
    simp [he]
  · rename_i he
    simp [he]
  · rename_i trace he
    rw [runInto_eq]
    simp [he]

section

variable {wanted : Option Nat} {walk after : Walk} {tape left : σ}

theorem run_of_error {failure : Failure} (hw : wanted ≠ some 0)
    (h : walk.next tape = ⟨.error failure, after, left⟩) :
    walk.run wanted tape = ⟨[], some failure, after, left⟩ := by
  rw [run_eq hw, h]

theorem run_of_end (hw : wanted ≠ some 0) (h : walk.next tape = ⟨.ok none, after, left⟩) :
    walk.run wanted tape = ⟨[], none, after, left⟩ := by
  rw [run_eq hw, h]

theorem run_of_trace {trace : Trace} (hw : wanted ≠ some 0)
    (h : walk.next tape = ⟨.ok (some trace), after, left⟩) :
    walk.run wanted tape =
      let rest := after.run (wanted.map (· - 1)) left
      { rest with traces := trace :: rest.traces } := by
  rw [run_eq hw, h]

theorem run_succ_of_trace {trace : Trace} (count : Nat)
    (h : walk.next tape = ⟨.ok (some trace), after, left⟩) :
    walk.run (some (count + 1)) tape =
      let rest := after.run (some count) left
      { rest with traces := trace :: rest.traces } := run_of_trace nofun h

end

/-- What holds of a run holds because of its first call and of the run that goes on behind it. -/
@[elab_as_elim]
theorem run_induct {motive : Option Nat → Walk → σ → Run σ → Prop}
    (stopped : ∀ walk tape, motive (some 0) walk tape ⟨[], none, walk, tape⟩)
    (failed : ∀ wanted walk tape failure, wanted ≠ some 0 →
      (walk.next tape).answer = .error failure →
      motive wanted walk tape ⟨[], some failure, (walk.next tape).walk, (walk.next tape).tape⟩)
    (ended : ∀ wanted walk tape, wanted ≠ some 0 → (walk.next tape).answer = .ok none →
      motive wanted walk tape ⟨[], none, (walk.next tape).walk, (walk.next tape).tape⟩)
    (yielded : ∀ wanted walk tape trace, wanted ≠ some 0 →
      (walk.next tape).answer = .ok (some trace) →
      ∀ rest : Run σ, motive (wanted.map (· - 1)) (walk.next tape).walk (walk.next tape).tape rest →
      motive wanted walk tape { rest with traces := trace :: rest.traces })
    (wanted : Option Nat) (walk : Walk) (tape : σ) :
    motive wanted walk tape (walk.run wanted tape) := by
  induction h : Medium.left tape using Nat.strongRecOn generalizing wanted walk tape with
  | _ n ih =>
      by_cases hw : wanted = some 0
      · rw [hw, run_zero]
        exact stopped walk tape
      · rw [run_eq hw]
        dsimp only
        split
        · rename_i failure ha
          exact failed wanted walk tape failure hw ha
        · rename_i ha
          exact ended wanted walk tape hw ha
        · rename_i trace ha
          have hlt : Medium.left (walk.next tape).tape < n := h ▸ left_lt_of_next ha
          exact yielded wanted walk tape trace hw ha _ (ih _ hlt _ _ _ rfl)

theorem callsInto_eq (done : List (Option Trace)) (count : Nat) (walk : Walk) (tape : σ) :
    callsInto done count walk tape =
      (done.reverse ++ (callsInto [] count walk tape).1, (callsInto [] count walk tape).2) := by
  induction count generalizing done walk tape with
  | zero => simp [callsInto]
  | succ count ih =>
      unfold callsInto
      dsimp only
      cases (walk.next tape).answer with
      | error failure => simp
      | ok trace? =>
          dsimp only
          rw [ih, ih [trace?]]
          simp

theorem callsInto_of_ok {trace? : Option Trace} {walk after : Walk} {tape left : σ}
    (h : walk.next tape = ⟨.ok trace?, after, left⟩) (count : Nat) :
    callsInto [] (count + 1) walk tape =
      (trace? :: (callsInto [] count after left).1, (callsInto [] count after left).2) := by
  rw [callsInto, h]
  exact callsInto_eq [trace?] count after left

/-! ### Folds of a run -/

theorem summarizeFrom_eq (summary : Summary) (walk : Walk) (tape : σ) :
    summarizeFrom summary walk tape =
      let run := walk.run none tape
      (run.interruption?.map fun interruption? =>
        match interruption? with
        | some interruption => (run.traces.foldl Summary.add summary).interrupted interruption
        | none => run.traces.foldl Summary.add summary, run.walk, run.tape) := by
  induction h : Medium.left tape using Nat.strongRecOn generalizing summary walk tape with
  | _ n ih =>
      rw [run_eq (show none ≠ some 0 from nofun), summarizeFrom]
      dsimp only
      split
      · rename_i cut ha
        rw [ha]
        rfl
      · rename_i failure hcut ha
        rw [ha]
        dsimp only
        rw [Run.interruption?_of_failure rfl hcut]
        rfl
      · rename_i ha
        rw [ha]
        rfl
      · rename_i trace ha
        have hlt : Medium.left (walk.next tape).tape < n := h ▸ left_lt_of_next ha
        rw [ih _ hlt _ _ _ rfl, ha]
        rfl

/-- A summary folds the traces of a run, up to the cut that ends it. -/
theorem summarize_eq (walk : Walk) (tape : σ) :
    walk.summarize tape =
      ((walk.run none tape).summary, (walk.run none tape).walk, (walk.run none tape).tape) := by
  rw [summarize, summarizeFrom_eq]
  rfl

def rowsLeft (limit : Option Int) (done : Nat) : Option Nat :=
  limit.map fun rows : Int => (rows - done).toNat

theorem rowsLeft_succ (limit : Option Int) (done : Nat) :
    (rowsLeft limit done).map (· - 1) = rowsLeft limit (done + 1) := by
  unfold rowsLeft
  rw [Option.map_map]
  congr 1
  funext rows
  show (rows - (done : Int)).toNat - 1 = (rows - ((done + 1 : Nat) : Int)).toNat
  omega

theorem rowsLeft_eq_zero_iff {limit : Option Int} {done : Nat} :
    rowsLeft limit done = some 0 ↔ limit.any (· ≤ (done : Int)) = true := by
  cases limit with
  | none => exact ⟨nofun, nofun⟩
  | some rows =>
      simp only [rowsLeft, Option.map_some, Option.some.injEq, Option.any_some, decide_eq_true_eq]
      omega

theorem tabulateInto_eq (done : List Row) (limit : Option Int) (walk : Walk) (tape : σ) :
    tabulateInto done limit walk tape =
      let run := walk.run (rowsLeft limit done.length) tape
      (run.interruption?.map fun interruption? =>
        ⟨done.reverse ++ run.traces.map Table.row, interruption?.map Interruption.message⟩,
        run.walk, run.tape) := by
  induction h : Medium.left tape using Nat.strongRecOn generalizing done walk tape with
  | _ n ih =>
      rw [tabulateInto]
      split
      · rename_i hfull
        rw [rowsLeft_eq_zero_iff.mpr hfull, run_zero]
        simp [Run.interruption?, Except.map]
      · rename_i hfull
        rw [run_eq (mt rowsLeft_eq_zero_iff.mp hfull)]
        dsimp only
        split
        · rename_i cut ha
          rw [ha]
          simp [Run.interruption?, Except.map, TraceCut.interruption]
        · rename_i failure hcut ha
          rw [ha]
          dsimp only
          rw [Run.interruption?_of_failure rfl hcut]
          rfl
        · rename_i ha
          rw [ha]
          simp [Run.interruption?, Except.map]
        · rename_i trace ha
          have hlt : Medium.left (walk.next tape).tape < n := h ▸ left_lt_of_next ha
          rw [ih _ hlt _ _ _ rfl, ha, rowsLeft_succ]
          simp [Run.interruption?]

/-- A table lists the traces of a run, up to the cut that ends it. -/
theorem tabulate_eq (limit : Option Int) (walk : Walk) (tape : σ) :
    walk.tabulate limit tape =
      ((walk.run (limit.map Int.toNat) tape).table, (walk.run (limit.map Int.toNat) tape).walk,
        (walk.run (limit.map Int.toNat) tape).tape) := by
  have hlimit : rowsLeft limit 0 = limit.map Int.toNat := by
    unfold rowsLeft
    simp
  rw [tabulate, tabulateInto_eq, List.length_nil, hlimit]
  rfl

end Walk

end SeisLog
