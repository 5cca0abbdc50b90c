import Mathlib.Data.List.Forall2
import SeisLog.Proofs.Pace

/-!
# Commands at any pace

Whatever is asked of a deck, in any order, how much one read of its tape brings is never seen: not
in an answer or a failure, not in where the tape stands, in the stalls it has left, or in a walk.
-/

namespace SeisLog

namespace Deck

structure Alike (first second : Deck) : Prop where
  tape : first.tape.Alike second.tape
  walks : first.walks = second.walks

theorem perform_alike {first second : Deck} (h : first.Alike second) (command : Command) :
    (first.perform command).1 = (second.perform command).1 ∧
      (first.perform command).2.Alike (second.perform command).2 := by
  obtain ⟨tape, walks⟩ := first
  obtain ⟨other, same⟩ := second
  obtain ⟨ht, hw⟩ := h
  dsimp only at ht hw
  subst hw
  cases command with
  | read request =>
      obtain ⟨he, hleft⟩ := request.agree_reading Tape.matching_alike ht
      exact ⟨congrArg Outcome.ofAnswer he, hleft, rfl⟩
  | start layout options =>
      unfold perform
      dsimp only
      cases Walk.start layout options with
      | error failure => exact ⟨rfl, ht, rfl⟩
      | ok walk => exact ⟨rfl, ht, rfl⟩
  | handle index handling =>
      unfold perform
      dsimp only
      cases walks[index]? with
      | none => exact ⟨rfl, ht, rfl⟩
      | some walk =>
          obtain ⟨hanswer, hwalk, hleft⟩ := handling.agree_apply Tape.matching_alike ht walk
          exact ⟨hanswer, hleft, congrArg (walks.set index ·) hwalk⟩

theorem play_alike {first second : Deck} (h : first.Alike second) (commands : List Command) :
    List.Forall₂ (fun one other => one.1 = other.1 ∧ one.2.Alike other.2)
      (first.play commands) (second.play commands) := by
  induction commands generalizing first second with
  | nil => exact .nil
  | cons command later ih =>
      obtain ⟨hanswer, hdeck⟩ := perform_alike h command
      exact .cons ⟨hanswer, hdeck⟩ (ih hdeck)

/-- Streams of the same bytes with the same stalls give the same answers and failures to the same
commands, step by step. Behind each step they stand at the same place, have the same bytes to come
and the same stalls left, are both open or both closed, and their walks are the same. -/
theorem play_ofBytes (bytes : Bytes) (stalls : List Nat) {first second : Option Nat}
    (hfirst : first ≠ some 0) (hsecond : second ≠ some 0) (commands : List Command) :
    List.Forall₂
      (fun one other =>
        one.1 = other.1 ∧ one.2.walks = other.2.walks ∧
          one.2.tape.position = other.2.tape.position ∧
          one.2.tape.unread = other.2.tape.unread ∧
          one.2.tape.stalls = other.2.tape.stalls ∧
          one.2.tape.access = other.2.tape.access)
      ((ofTape (.ofBytes bytes first stalls)).play commands)
      ((ofTape (.ofBytes bytes second stalls)).play commands) := by
  have halike : (ofTape (.ofBytes bytes first stalls)).Alike
      (ofTape (.ofBytes bytes second stalls)) :=
    ⟨⟨rfl, rfl, rfl, rfl, hfirst, hsecond⟩, rfl⟩
  refine (play_alike halike commands).imp ?_
  rintro one other ⟨hanswer, hdeck⟩
  exact ⟨hanswer, hdeck.walks, hdeck.tape.position, hdeck.tape.unread, hdeck.tape.stalls,
    hdeck.tape.access⟩

def countOnly : Layout :=
  ⟨"count_only", [Segy.uint16 "number_of_samples" 0 Segy.numberOfSamples_ne_empty], some 2,
    Segy.nodup_numberOfSamples, by decide⟩

/-- A trace of one sample is cut by a stall, whether bytes come one by one or all at once. -/
def stalledCommands : List Command := [
  .start countOnly { format := .integer2 }, .handle 0 .next, .handle 0 .next, .read (.rest 3),
  .start countOnly { format := .integer1 }, .handle 1 (.iterate none)]

theorem play_ofBytes_stalled :
    some 1 ≠ some 0 ∧ none ≠ some 0 ∧
      List.Forall₂
        (fun one other =>
          one.1 = other.1 ∧ one.2.walks = other.2.walks ∧
            one.2.tape.position = other.2.tape.position ∧
            one.2.tape.unread = other.2.tape.unread ∧
            one.2.tape.stalls = other.2.tape.stalls ∧
            one.2.tape.access = other.2.tape.access)
        ((ofTape (.ofBytes [0, 1, 9, 9, 0, 2, 9, 0, 1, 5, 0, 1, 6] (some 1) [7, 6])).play
          stalledCommands)
        ((ofTape (.ofBytes [0, 1, 9, 9, 0, 2, 9, 0, 1, 5, 0, 1, 6] none [7, 6])).play
          stalledCommands) ∧
      ((ofTape (.ofBytes [0, 1, 9, 9, 0, 2, 9, 0, 1, 5, 0, 1, 6] none [7, 6])).play
        stalledCommands).map (fun step => (step.2.tape.position, step.2.tape.stalls)) =
          [(0, [6, 7]), (4, [6, 7]), (6, [7]), (7, []), (7, []), (13, [])] :=
  ⟨by decide, by decide, play_ofBytes _ _ (by decide) (by decide) _, by decide +kernel⟩

end Deck

end SeisLog
