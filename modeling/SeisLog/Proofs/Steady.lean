import SeisLog.Proofs.Reach

/-!
# Tapes without stalls

A flowing tape has no stall, and its reads bring at least one byte until the end. A request that it
grants brings what one long read would bring, however short its reads are. A steady tape is a
flowing stream, which grants every request.
-/

namespace SeisLog

namespace Tape

/-- The tape answers a reading of `size` bytes. -/
def Grants (size : Int) (tape : Tape) : Prop := Reading.refused? size tape = none

structure Flowing (tape : Tape) : Prop where
  stalls : tape.stalls = []
  limit : tape.limit ≠ some 0

structure Steady (tape : Tape) : Prop where
  access : tape.access = .stream
  stalls : tape.stalls = []
  limit : tape.limit ≠ some 0

theorem steady_ofBytes (bytes : Bytes) {limit : Option Nat} (h : limit ≠ some 0) :
    (ofBytes bytes limit []).Steady := ⟨rfl, rfl, h⟩

theorem Steady.flowing {tape : Tape} (h : tape.Steady) : tape.Flowing := ⟨h.stalls, h.limit⟩

theorem Steady.grants {tape : Tape} (h : tape.Steady) (size : Int) : tape.Grants size := by
  unfold Grants Reading.refused? Reading.refusal?
  rw [h.access, ite_self]

/-- An open tape grants all that a file hands out. -/
theorem grants_of_isOpen {tape : Tape} (h : tape.isOpen = true) {size : Int}
    (hle : size ≤ fileCeiling) : tape.Grants size := by
  unfold Grants Reading.refused? Reading.refusal?
  unfold isOpen at h
  by_cases hs : size ≤ 0
  · rw [if_pos hs]
  · rw [if_neg hs]
    cases ha : tape.access with
    | closed => simp [ha] at h
    | file => exact if_neg (by omega)
    | stream => rfl

theorem Grants.isOpen {tape : Tape} {size : Int} (h : tape.Grants size) (hs : 0 < size) :
    tape.isOpen = true := by
  unfold Grants Reading.refused? Reading.refusal? at h
  rw [if_neg (by omega)] at h
  unfold Tape.isOpen
  cases ha : tape.access with
  | closed => simp [ha] at h
  | file => rfl
  | stream => rfl

theorem Grants.ahead {size : Int} {tape : Tape} (h : tape.Grants size) (passed : Nat) :
    (tape.ahead passed).Grants size := h

theorem Flowing.ahead {tape : Tape} (h : tape.Flowing) (size : Nat) : (tape.ahead size).Flowing :=
  ⟨h.stalls, h.limit⟩

theorem Flowing.reach {tape : Tape} (h : tape.Flowing) : tape.reach = tape.unread.length :=
  reach_of_nil h.stalls

theorem Flowing.onward {tape : Tape} (h : tape.Flowing) (size : Nat) :
    tape.onward size = tape.ahead size := by
  rw [Tape.onward, h.reach]
  by_cases hs : size ≤ tape.unread.length
  · rw [if_pos hs]
  · rw [if_neg hs, halt, show (tape.ahead tape.unread.length).stalls = [] from h.stalls,
      ← ahead_of_le (Nat.le_of_not_le hs)]

end Tape

namespace Reading

open Tape

variable {tape : Tape}

theorem grants_of_take (hl : tape.limit ≠ some 0) {size : Int} {bytes : Bytes} {after : Tape}
    (h : take size tape = (.ok bytes, after)) : tape.Grants size := by
  rw [take_eq hl] at h
  cases hf : refused? size tape with
  | none => exact hf
  | some failure =>
      rw [hf] at h
      cases h

theorem take_of_flowing (h : tape.Flowing) {size : Int} (hg : tape.Grants size) :
    take size tape = (.ok (tape.unread.take size.toNat), tape.ahead size.toNat) := by
  have ht : tape.unread.take (min size.toNat tape.reach) = tape.unread.take size.toNat := by
    rw [h.reach, ← List.take_take, List.take_length]
  rw [take_eq h.limit, hg, ht, h.onward]

theorem skip_of_flowing (h : tape.Flowing) {size : Int} {chunk : Nat} (hc : 0 < chunk)
    (hg : tape.Grants (min chunk size)) :
    skip size chunk tape = (.ok (min size.toNat tape.unread.length), tape.ahead size.toNat) := by
  rw [skip_eq h.limit size hc, hg, h.onward, h.reach]

end Reading

end SeisLog
