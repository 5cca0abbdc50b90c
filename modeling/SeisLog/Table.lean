import SeisLog.Summary

/-!
# Trace tables

One row for each trace: its header values, then the number of samples and their extremes. A header
field with the name of a computed column keeps its place and takes the computed value.
-/

namespace SeisLog

structure Row where
  index : Nat
  values : Fields Value
deriving DecidableEq, Repr

structure Table where
  rows : List Row
  incomplete : Option String
deriving DecidableEq, Repr

namespace Table

def row (trace : Trace) : Row :=
  ⟨trace.index, trace.header.values.setAll [
    ("n_samples", .integer trace.samples.length),
    ("sample_min", .real trace.least),
    ("sample_max", .real trace.greatest)]⟩

def ofTraces (traces : List Trace) (interruption? : Option Interruption) : Table :=
  ⟨traces.map row, interruption?.map Interruption.message⟩

/-- The column names, which all rows share; no rows have no columns. -/
def columns (table : Table) : List String := (table.rows.head?.map (·.values.names)).getD []

/-- At most `wanted` rows of a sequence; an interruption past the last wanted row goes unseen. -/
def ofTracesUpTo (wanted : Option Nat) (traces : List Trace)
    (interruption? : Option Interruption) : Table :=
  match wanted with
  | some count =>
      if traces.length < count then ofTraces traces interruption?
      else ofTraces (traces.take count) none
  | none => ofTraces traces interruption?

end Table

namespace Walk

variable {σ : Type} [Medium σ]

/-- Goes on with a table until it has as many rows as wanted, or the walk ends or is cut; `done`
holds the rows so far, the last one first. -/
def tabulateInto (done : List Row) (limit : Option Int) (walk : Walk) (tape : σ) :
    Except Failure Table × Walk × σ :=
  if limit.any (· ≤ (done.length : Int)) then (.ok ⟨done.reverse, none⟩, walk, tape)
  else
    let step := walk.next tape
    match h : step.answer with
    | .error (.trace cut) => (.ok ⟨done.reverse, some cut.message⟩, step.walk, step.tape)
    | .error failure => (.error failure, step.walk, step.tape)
    | .ok none => (.ok ⟨done.reverse, none⟩, step.walk, step.tape)
    | .ok (some trace) =>
        have : Medium.left step.tape < Medium.left tape := left_lt_of_next h
        tabulateInto (Table.row trace :: done) limit step.walk step.tape
termination_by Medium.left tape

def tabulate (limit : Option Int) (walk : Walk) (tape : σ) : Except Failure Table × Walk × σ :=
  tabulateInto [] limit walk tape

end Walk

end SeisLog
