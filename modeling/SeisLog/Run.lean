import SeisLog.Walk

/-!
# Runs of a walk

A run calls a walk until it yields nothing, fails, or has given as many traces as wanted.
-/

namespace SeisLog

/-- The traces of a run in order, what stopped it if it failed, and what it left behind. -/
structure Run (σ : Type) where
  traces : List Trace
  failure? : Option Failure
  walk : Walk
  tape : σ

namespace Walk

variable {σ : Type} [Medium σ]

/-- `done` holds the traces so far, the last one first. -/
def runInto (done : List Trace) (wanted : Option Nat) (walk : Walk) (tape : σ) : Run σ :=
  if wanted = some 0 then ⟨done.reverse, none, walk, tape⟩
  else
    let step := walk.next tape
    match h : step.answer with
    | .error failure => ⟨done.reverse, some failure, step.walk, step.tape⟩
    | .ok none => ⟨done.reverse, none, step.walk, step.tape⟩
    | .ok (some trace) =>
        have : Medium.left step.tape < Medium.left tape := left_lt_of_next h
        runInto (trace :: done) (wanted.map (· - 1)) step.walk step.tape
termination_by Medium.left tape

/-- At most `wanted` traces, or all of them. -/
def run (wanted : Option Nat) (walk : Walk) (tape : σ) : Run σ := runInto [] wanted walk tape

/-- The answers of `count` calls, with what stopped them if one failed. -/
def callsInto (done : List (Option Trace)) (count : Nat) (walk : Walk) (tape : σ) :
    List (Option Trace) × Option Failure × Walk × σ :=
  match count with
  | 0 => (done.reverse, none, walk, tape)
  | count + 1 =>
      let step := walk.next tape
      match step.answer with
      | .error failure => (done.reverse, some failure, step.walk, step.tape)
      | .ok trace? => callsInto (trace? :: done) count step.walk step.tape

/-- Makes `count` calls and then gives the walk up, also when a call fails. -/
def within (count : Nat) (walk : Walk) (tape : σ) :
    List (Option Trace) × Option Failure × Walk × σ :=
  let (answers, failure?, walk, tape) := callsInto [] count walk tape
  let (walk, tape) := walk.close tape
  (answers, failure?, walk, tape)

end Walk

end SeisLog
