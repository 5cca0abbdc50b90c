import SeisLog.Number.Decimal
import SeisLog.Run

/-!
# Trace summaries

The number of traces and the extremes of all their samples. A cut ends the fold early and marks the
summary; any other failure leaves no summary.
-/

namespace SeisLog

structure Interruption where
  message : String
  consumed : Int
deriving DecidableEq, Repr

def TraceCut.interruption (cut : TraceCut) : Interruption := ⟨cut.message, cut.consumed⟩

/-- An extreme is absent when no sample was seen. -/
structure Summary where
  count : Int
  least : Option Binary64
  greatest : Option Binary64
  isComplete : Bool
  error : Option String
  consumed : Int
deriving DecidableEq, Repr

namespace Summary

def empty : Summary := ⟨0, none, none, true, none, 0⟩

/-- The running extreme gives way only to one that is strictly beyond it. -/
def widen (beyond : Binary64 → Binary64 → Bool) (running next : Option Binary64) :
    Option Binary64 :=
  match running, next with
  | some x, some y => some (if beyond y x then y else x)
  | none, y => y
  | x, none => x

def add (summary : Summary) (trace : Trace) : Summary :=
  { summary with
    count := summary.count + 1
    least := widen Binary64.lt summary.least trace.least?
    greatest := widen (fun x y => y.lt x) summary.greatest trace.greatest?
    consumed := trace.consumed }

def interrupted (summary : Summary) (interruption : Interruption) : Summary :=
  { summary with
    isComplete := false
    error := some interruption.message
    consumed := interruption.consumed }

/-- The summary of traces that were interrupted, or not, after the last one. -/
def ofTraces (traces : List Trace) (interruption? : Option Interruption) : Summary :=
  let summary := traces.foldl add empty
  match interruption? with
  | some interruption => summary.interrupted interruption
  | none => summary

def spread (summary : Summary) : Option Binary64 :=
  match summary.least, summary.greatest with
  | some least, some greatest => some (greatest.sub least)
  | _, _ => none

/-- The parts of a description: the count, the extremes if there are any, the mark of a cut. -/
def parts (summary : Summary) : List String :=
  let extremes :=
    match summary.least, summary.greatest with
    | some least, some greatest =>
        ["Max Value: " ++ greatest.toStatistic ++ " Min Value: " ++ least.toStatistic ++
          " Diff: " ++ (greatest.sub least).toStatistic]
    | _, _ => []
  let mark :=
    if summary.isComplete then []
    else ["(file is incomplete: " ++ summary.error.getD "None" ++ ")"]
  s!"Traces: {summary.count}" :: extremes ++ mark

def describe (summary : Summary) : String := " ".intercalate summary.parts

def isEmpty (summary : Summary) : Bool :=
  summary.count == 0 && summary.least.isNone && summary.greatest.isNone && summary.isComplete &&
    summary.error.isNone && summary.consumed == 0

end Summary

namespace Walk

variable {σ : Type} [Medium σ]

/-- Goes on with a summary until the walk ends or is cut. -/
def summarizeFrom (summary : Summary) (walk : Walk) (tape : σ) :
    Except Failure Summary × Walk × σ :=
  let step := walk.next tape
  match h : step.answer with
  | .error (.trace cut) => (.ok (summary.interrupted cut.interruption), step.walk, step.tape)
  | .error failure => (.error failure, step.walk, step.tape)
  | .ok none => (.ok summary, step.walk, step.tape)
  | .ok (some trace) =>
      have : Medium.left step.tape < Medium.left tape := left_lt_of_next h
      summarizeFrom (summary.add trace) step.walk step.tape
termination_by Medium.left tape

def summarize (walk : Walk) (tape : σ) : Except Failure Summary × Walk × σ :=
  summarizeFrom .empty walk tape

end Walk

/-- Walks a region from where the tape stands, and gives the walk up in every case. -/
def Reading.summary {σ : Type} [Medium σ] (layout : Layout) (options : Walk.Options) :
    Reading σ Summary := fun tape =>
  match Walk.start layout options with
  | .error failure => (.error failure, tape)
  | .ok walk =>
      let (answer, walk, tape) := walk.summarize tape
      (answer, (walk.close tape).2)

end SeisLog
