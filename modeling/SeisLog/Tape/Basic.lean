import SeisLog.Bytes

/-!
# Tapes

A forward-only stream of bytes. One read brings at most `limit` bytes and does not cross the next
stall; at a stall it brings nothing and uses the stall up. The loops below read on over short
reads and stop at the first empty one. Stalls act in the order of their places.

`unread` is the view of a tape: a read splits it (`fst_pull_append`), and `unread.length` with the
number of stalls bounds every loop.
-/

namespace SeisLog

/-- How a tape answers requests: a closed one refuses them all, and a file those beyond its
ceiling. -/
inductive Access
  | closed
  | file
  | stream
deriving DecidableEq, Repr

structure Tape where
  unread : Bytes
  position : Nat
  limit : Option Nat
  stalls : List Nat
  access : Access
deriving DecidableEq, Repr

namespace Tape

/-- Adds a stall to stalls that are in order. -/
def insertStall (place : Nat) : List Nat → List Nat
  | [] => [place]
  | stall :: later =>
      if place ≤ stall then place :: stall :: later else stall :: insertStall place later

/-- The stalls in order; a place given twice stalls twice. -/
def inOrder (stalls : List Nat) : List Nat := stalls.foldr insertStall []

def ofBytes (bytes : Bytes) (limit : Option Nat) (stalls : List Nat) : Tape :=
  ⟨bytes, 0, limit, inOrder stalls, .stream⟩

def ofFile (content : Bytes) : Tape := ⟨content, 0, none, [], .file⟩

/-- The most bytes that a file hands out at one request: with 33 bytes of bookkeeping they come to
less than `2 ^ 63`. -/
def fileCeiling : Nat := 1 <<< 63 - 34

def isOpen (tape : Tape) : Bool := tape.access != .closed

def close (tape : Tape) : Tape := { tape with access := .closed }

/-- The next bytes, at most `size` of them. -/
def advance (size : Nat) (tape : Tape) : Bytes × Tape :=
  let bytes := tape.unread.take size
  (bytes, { tape with unread := tape.unread.drop size, position := tape.position + bytes.length })

def capped (size : Nat) (tape : Tape) : Nat :=
  match tape.limit with
  | some limit => min size limit
  | none => size

/-- One read of at most `size` bytes from an open tape. -/
def pull (size : Nat) (tape : Tape) : Bytes × Tape :=
  match tape.stalls with
  | [] => tape.advance (tape.capped size)
  | stall :: later =>
      if stall ≤ tape.position then ([], { tape with stalls := later })
      else tape.advance (min (tape.capped size) (stall - tape.position))

theorem advance_append (size : Nat) (tape : Tape) :
    (tape.advance size).1 ++ (tape.advance size).2.unread = tape.unread := by
  simp [advance]

theorem fst_pull_append (size : Nat) (tape : Tape) :
    (tape.pull size).1 ++ (tape.pull size).2.unread = tape.unread := by
  unfold pull
  split
  · exact advance_append _ _
  · split
    · rfl
    · exact advance_append _ _

theorem length_pull (size : Nat) (tape : Tape) :
    (tape.pull size).1.length + (tape.pull size).2.unread.length = tape.unread.length := by
  rw [← List.length_append, fst_pull_append]

/-- Reads until `size` bytes are in hand or a read is empty; `done` holds the chunks so far, the
last one first. -/
def gatherInto (done : List Bytes) (size : Nat) (tape : Tape) : Bytes × Tape :=
  if size = 0 then (done.reverse.flatten, tape)
  else
    match tape.pull size with
    | ([], after) => (done.reverse.flatten, after)
    | (byte :: chunk, after) =>
        gatherInto ((byte :: chunk) :: done) (size - (chunk.length + 1)) after
termination_by size

/-- The next `size` bytes, fewer only where the tape ends or stalls. -/
def gather (size : Nat) (tape : Tape) : Bytes × Tape := gatherInto [] size tape

/-- Reads chunks until one is empty. -/
def drainInto (done : List Bytes) (chunk : Nat) (tape : Tape) : Bytes × Tape :=
  match h : tape.pull chunk with
  | ([], after) => (done.reverse.flatten, after)
  | (byte :: bytes, after) =>
      have : after.unread.length < tape.unread.length := by
        have := length_pull chunk tape
        simp only [h, List.length_cons] at this
        omega
      drainInto ((byte :: bytes) :: done) chunk after
termination_by tape.unread.length

def drain (chunk : Nat) (tape : Tape) : Bytes × Tape := drainInto [] chunk tape

/-- Passes over bytes in reads of at most `chunk`, until `size` are behind or a read is empty. -/
def passFrom (passed chunk size : Nat) (tape : Tape) : Nat × Tape :=
  if size = 0 then (passed, tape)
  else
    match tape.pull (min chunk size) with
    | ([], after) => (passed, after)
    | (_ :: bytes, after) =>
        passFrom (passed + (bytes.length + 1)) chunk (size - (bytes.length + 1)) after
termination_by size

/-- The number of bytes passed over, `size` unless the tape ends or stalls before. -/
def pass (chunk size : Nat) (tape : Tape) : Nat × Tape := passFrom 0 chunk size tape

theorem gatherInto_append (done : List Bytes) (size : Nat) (tape : Tape) :
    gatherInto done size tape =
      (done.reverse.flatten ++ (gather size tape).1, (gather size tape).2) := by
  induction size using Nat.strongRecOn generalizing done tape with
  | _ size ih =>
      rw [gather, gatherInto, gatherInto.eq_def []]
      split
      · simp
      · split
        · simp
        · rename_i hs byte chunk after _
          have hlt : size - (chunk.length + 1) < size := by omega
          rw [ih _ hlt, ih _ hlt [byte :: chunk]]
          simp

/-- What holds of a gathering holds because of its first read and of what is gathered behind it. -/
@[elab_as_elim]
theorem gather_induct {motive : Nat → Tape → Bytes × Tape → Prop}
    (done : ∀ tape, motive 0 tape ([], tape))
    (dry : ∀ size tape, size ≠ 0 → (tape.pull size).1 = [] →
      motive size tape ([], (tape.pull size).2))
    (more : ∀ size tape, size ≠ 0 → (tape.pull size).1 ≠ [] → ∀ rest : Bytes × Tape,
      motive (size - (tape.pull size).1.length) (tape.pull size).2 rest →
      motive size tape ((tape.pull size).1 ++ rest.1, rest.2))
    (size : Nat) (tape : Tape) : motive size tape (gather size tape) := by
  induction size using Nat.strongRecOn generalizing tape with
  | _ size ih =>
      rw [gather, gatherInto]
      split
      · rename_i hz
        rw [hz]
        exact done tape
      · rename_i hs
        split
        · rename_i after h
          have hdry := dry size tape hs
          rw [h] at hdry
          exact hdry rfl
        · rename_i byte chunk after h
          have hmore := more size tape hs
          rw [h] at hmore
          rw [gatherInto_append, List.reverse_singleton, List.flatten_singleton]
          exact hmore nofun _ (ih _ (by rw [List.length_cons]; omega) after)

theorem gather_append (size : Nat) (tape : Tape) :
    (gather size tape).1 ++ (gather size tape).2.unread = tape.unread := by
  induction size, tape using gather_induct with
  | done tape => rfl
  | dry size tape hs hp =>
      have happend := fst_pull_append size tape
      rwa [hp] at happend
  | more size tape hs hp rest ih => rw [List.append_assoc, ih, fst_pull_append]

theorem length_gather (size : Nat) (tape : Tape) :
    (gather size tape).1.length + (gather size tape).2.unread.length = tape.unread.length := by
  rw [← List.length_append, gather_append]

@[simp] theorem gather_zero (tape : Tape) : gather 0 tape = ([], tape) := by
  simp [gather, gatherInto]

end Tape

end SeisLog
