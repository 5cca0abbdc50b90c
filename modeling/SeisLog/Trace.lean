import SeisLog.Header.Basic
import SeisLog.Number.Binary64

/-!
# Traces

One trace of a seismic region: its header and its samples. The extremes of the samples are NaN as
soon as one sample is; of two equal extremes the later one is kept.
-/

namespace SeisLog

namespace Binary64

def lesser (x y : Binary64) : Binary64 := if x.isNaN || x.lt y then x else y

def greater (x y : Binary64) : Binary64 := if x.isNaN || y.lt x then x else y

/-- The one extreme of a list that `pick` chooses pair by pair. -/
def extreme? (pick : Binary64 → Binary64 → Binary64) : List Binary64 → Option Binary64
  | [] => none
  | x :: rest => some (rest.foldl pick x)

end Binary64

/-- `consumed` counts the bytes from the start of the region to the end of the trace. -/
structure Trace where
  index : Nat
  header : Header
  samples : List Binary64
  consumed : Int
deriving DecidableEq, Repr

namespace Trace

def least? (trace : Trace) : Option Binary64 := Binary64.extreme? Binary64.lesser trace.samples

def greatest? (trace : Trace) : Option Binary64 := Binary64.extreme? Binary64.greater trace.samples

/-- The least sample, zero where there is none. -/
def least (trace : Trace) : Binary64 := trace.least?.getD Binary64.zero

/-- The greatest sample, zero where there is none. -/
def greatest (trace : Trace) : Binary64 := trace.greatest?.getD Binary64.zero

end Trace

end SeisLog
