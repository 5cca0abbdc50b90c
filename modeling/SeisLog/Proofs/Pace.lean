import SeisLog.Proofs.Matching
import SeisLog.Proofs.Reach

/-!
# Pace

Two tapes are alike if they differ at most in how many bytes one read brings. Every loop stops at
the same place on both, and for the same reason, so no reading and no walk can tell them apart.
-/

namespace SeisLog

/-- Each read of either tape brings at least one byte, but not as many on one as on the other. -/
structure Tape.Alike (a b : Tape) : Prop where
  unread : a.unread = b.unread
  position : a.position = b.position
  stalls : a.stalls = b.stalls
  access : a.access = b.access
  left_limit : a.limit ≠ some 0
  right_limit : b.limit ≠ some 0

namespace Tape.Alike

variable {a b : Tape}

theorem reach (h : a.Alike b) : a.reach = b.reach := by
  unfold Tape.reach
  rw [h.stalls, h.unread, h.position]

theorem ahead (h : a.Alike b) (size : Nat) : (a.ahead size).Alike (b.ahead size) where
  unread := by rw [unread_ahead, unread_ahead, h.unread]
  position := by rw [position_ahead, position_ahead, h.position, h.unread]
  stalls := h.stalls
  access := h.access
  left_limit := h.left_limit
  right_limit := h.right_limit

theorem halt (h : a.Alike b) : a.halt.Alike b.halt := by
  unfold Tape.halt
  rw [h.stalls, h.position]
  cases b.stalls with
  | nil => exact h
  | cons stall later =>
      by_cases hp : stall ≤ b.position
      · simp only [if_pos hp]
        exact ⟨h.unread, rfl, rfl, h.access, h.left_limit, h.right_limit⟩
      · simp only [if_neg hp]
        exact h

theorem onward (h : a.Alike b) (size : Nat) : (a.onward size).Alike (b.onward size) := by
  unfold Tape.onward
  rw [h.reach]
  by_cases hs : size ≤ b.reach
  · rw [if_pos hs, if_pos hs]
    exact h.ahead size
  · rw [if_neg hs, if_neg hs]
    exact (h.ahead b.reach).halt

theorem gather (h : a.Alike b) (size : Nat) :
    (a.gather size).1 = (b.gather size).1 ∧ (a.gather size).2.Alike (b.gather size).2 := by
  rw [gather_eq h.left_limit, gather_eq h.right_limit, h.reach, h.unread]
  exact ⟨rfl, h.onward size⟩

theorem drain (h : a.Alike b) (chunk : Nat) :
    (a.drain chunk).1 = (b.drain chunk).1 ∧ (a.drain chunk).2.Alike (b.drain chunk).2 := by
  by_cases hc : chunk = 0
  · rw [hc, drain_zero, drain_zero]
    exact ⟨rfl, h.halt⟩
  · rw [drain_eq h.left_limit (Nat.pos_of_ne_zero hc),
      drain_eq h.right_limit (Nat.pos_of_ne_zero hc), h.reach, h.unread]
    exact ⟨rfl, (h.ahead b.reach).halt⟩

theorem pass (h : a.Alike b) (chunk : Nat) {size : Nat} (hs : 0 < size) :
    (a.pass chunk size).1 = (b.pass chunk size).1 ∧
      (a.pass chunk size).2.Alike (b.pass chunk size).2 := by
  by_cases hc : chunk = 0
  · rw [hc, pass_zero hs, pass_zero hs]
    exact ⟨rfl, h.halt⟩
  · rw [pass_eq h.left_limit (Nat.pos_of_ne_zero hc),
      pass_eq h.right_limit (Nat.pos_of_ne_zero hc), h.reach]
    exact ⟨rfl, h.onward size⟩

theorem close (h : a.Alike b) : a.close.Alike b.close :=
  ⟨h.unread, h.position, h.stalls, rfl, h.left_limit, h.right_limit⟩

end Tape.Alike

namespace Tape

open Reading

theorem agree_ofStep {α : Type} {size : Nat} {step : Tape → α × Tape}
    (h : ∀ ⦃a b : Tape⦄, a.Alike b → (step a).1 = (step b).1 ∧ (step a).2.Alike (step b).2) :
    Agree Alike (ofStep size step) (ofStep size step) := by
  intro a b hab
  have hr : refusal? size a = refusal? size b := by rw [refusal?, refusal?, hab.access]
  unfold ofStep
  rw [hr]
  cases refusal? size b with
  | some failure => exact ⟨rfl, hab⟩
  | none =>
      obtain ⟨he, ht⟩ := h hab
      exact ⟨congrArg Except.ok he, ht⟩

/-- No operation tells tapes apart that are alike. -/
theorem matching_alike : Medium.Matching Alike where
  take size := by
    show Agree Alike (Reading.take size) (Reading.take size)
    rw [take_tape]
    split
    · exact agree_pure []
    · exact agree_ofStep fun _ _ h => h.gather size.toNat
  takeRest chunk := agree_ofStep fun _ _ h => h.drain chunk
  skip size chunk := by
    show Agree Alike (Reading.skip size chunk) (Reading.skip size chunk)
    rw [skip_tape]
    split
    · exact agree_pure 0
    · rename_i hs
      exact agree_ofStep fun _ _ h => h.pass chunk (by omega)
  close h := h.close

end Tape

end SeisLog
