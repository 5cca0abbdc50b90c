import SeisLog.Failure
import SeisLog.Tape.Basic

/-!
# Readings

An operation on a medium, such as a tape, gives an answer or a failure, and in both cases the medium
as it left it. Reading no bytes does not touch a tape, so it works on a closed one as well.
-/

namespace SeisLog

def Reading (σ α : Type) : Type := σ → Except Failure α × σ

/-- Something to read from: the next bytes, all of them up to an empty read, or their number only.
What was read no longer counts as left. -/
class Medium (σ : Type) where
  take : Int → Reading σ Bytes
  takeRest : Nat → Reading σ Bytes
  skip : Int → Nat → Reading σ Nat
  close : σ → σ
  left : σ → Nat
  length_take : ∀ {size : Int} {s after : σ} {bytes : Bytes},
    take size s = (.ok bytes, after) → bytes.length + left after = left s
  left_take_le : ∀ (size : Int) (s : σ), left (take size s).2 ≤ left s

namespace Reading

variable {σ α : Type}

instance : Monad (Reading σ) where
  pure answer := fun s => (.ok answer, s)
  bind reading next := fun s =>
    match reading s with
    | (.ok answer, after) => next answer after
    | (.error failure, after) => (.error failure, after)

def fail (failure : Failure) : Reading σ α := fun s => (.error failure, s)

def ofExcept (answer : Except Failure α) : Reading σ α := fun s => (answer, s)

section

variable [Medium σ]

/-- The next `size` bytes, fewer only where the medium ends or stalls. -/
def take (size : Int) : Reading σ Bytes := Medium.take size

def usualChunk : Nat := 65536

/-- Everything up to the end or the next stall. -/
def takeRest (chunk : Nat) : Reading σ Bytes := Medium.takeRest chunk

/-- The number of bytes passed over, `size` unless the medium ends or stalls before. -/
def skip (size : Int) (chunk : Nat) : Reading σ Nat := Medium.skip size chunk

end

/-- Why a tape does not answer a request for `size` bytes. -/
def refusal? (size : Nat) (tape : Tape) : Option Failure :=
  match tape.access with
  | .closed => some .closed
  | .file => if Tape.fileCeiling < size then some (.request size) else none
  | .stream => none

/-- A step of a tape whose requests are for at most `size` bytes, the first one for all of them. -/
def ofStep (size : Nat) (step : Tape → α × Tape) : Reading Tape α := fun tape =>
  match refusal? size tape with
  | some failure => (.error failure, tape)
  | none => (.ok (step tape).1, (step tape).2)

end Reading

namespace Tape

open Reading

def read (size : Int) : Reading Tape Bytes :=
  if size ≤ 0 then pure [] else ofStep size.toNat (gather size.toNat)

theorem length_read {size : Int} {tape after : Tape} {bytes : Bytes}
    (h : read size tape = (.ok bytes, after)) :
    bytes.length + after.unread.length = tape.unread.length := by
  unfold read at h
  split at h
  · obtain ⟨hb, rfl⟩ := Prod.mk.inj h
    obtain rfl : [] = bytes := by simpa using hb
    simp
  · unfold ofStep at h
    split at h
    · simp at h
    · obtain ⟨hb, rfl⟩ := Prod.mk.inj h
      obtain rfl : _ = bytes := by simpa using hb
      exact length_gather _ _

theorem unread_read_le (size : Int) (tape : Tape) :
    (read size tape).2.unread.length ≤ tape.unread.length := by
  unfold read
  split
  · exact Nat.le_refl _
  · unfold ofStep
    split
    · exact Nat.le_refl _
    · have := length_gather size.toNat tape
      dsimp only
      omega

instance : Medium Tape where
  take := read
  takeRest chunk := ofStep chunk (drain chunk)
  skip size chunk :=
    if size ≤ 0 then pure 0 else ofStep (min chunk size.toNat) (pass chunk size.toNat)
  close := close
  left tape := tape.unread.length
  length_take := length_read
  left_take_le := unread_read_le

end Tape

namespace Reading

theorem take_tape (size : Int) :
    (take size : Reading Tape Bytes) =
      if size ≤ 0 then pure [] else ofStep size.toNat (Tape.gather size.toNat) := rfl

theorem takeRest_tape (chunk : Nat) :
    (takeRest chunk : Reading Tape Bytes) = ofStep chunk (Tape.drain chunk) := rfl

theorem skip_tape (size : Int) (chunk : Nat) :
    (skip size chunk : Reading Tape Nat) =
      if size ≤ 0 then pure 0
      else ofStep (min chunk size.toNat) (Tape.pass chunk size.toNat) := rfl

end Reading

end SeisLog
