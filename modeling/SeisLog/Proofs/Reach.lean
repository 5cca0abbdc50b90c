import SeisLog.Tape.Reading

/-!
# What the loops over a tape bring

The reach of a tape is the number of bytes before its next stall or its end. However short the
single reads are, each loop comes out in closed form: it advances within the reach, and it meets
the stall or the end only if it wants more than the reach (`gather_eq`, `pass_eq`, `drain_eq`).
-/

namespace SeisLog

namespace Tape

def ahead (size : Nat) (tape : Tape) : Tape := (tape.advance size).2

@[simp] theorem unread_ahead (size : Nat) (tape : Tape) :
    (tape.ahead size).unread = tape.unread.drop size := rfl

@[simp] theorem position_ahead (size : Nat) (tape : Tape) :
    (tape.ahead size).position = tape.position + min size tape.unread.length := by
  simp [ahead, advance]

@[simp] theorem ahead_zero (tape : Tape) : tape.ahead 0 = tape := by
  simp [Tape.ahead, advance]

theorem ahead_ahead (a b : Nat) (tape : Tape) :
    (tape.ahead a).ahead b = tape.ahead (a + b) := by
  simp only [Tape.ahead, advance, List.drop_drop, List.length_take, List.length_drop, mk.injEq,
    true_and, and_true]
  omega

theorem ahead_of_nil {tape : Tape} (h : tape.unread = []) (size : Nat) :
    tape.ahead size = tape := by
  obtain ⟨unread, position, limit, stalls, access⟩ := tape
  cases h
  simp [Tape.ahead, advance]

theorem ahead_of_le {size : Nat} {tape : Tape} (h : tape.unread.length ≤ size) :
    tape.ahead size = tape.ahead tape.unread.length := by
  simp only [Tape.ahead, advance, List.take_of_length_le h, List.take_length,
    List.drop_eq_nil_of_le h, List.drop_length]

/-- Bytes that were passed over no longer matter. -/
theorem ahead_congr {size : Nat} {tape : Tape} {bytes : Bytes}
    (hl : bytes.length = tape.unread.length) (h : bytes.drop size = tape.unread.drop size) :
    ({ tape with unread := bytes } : Tape).ahead size = tape.ahead size := by
  simp only [Tape.ahead, advance, List.length_take, hl, h]

theorem advance_min (size : Nat) (tape : Tape) :
    tape.advance (min size tape.unread.length) = tape.advance size := by
  rcases Nat.le_total size tape.unread.length with h | h
  · rw [Nat.min_eq_left h]
  · rw [Nat.min_eq_right h]
    exact Prod.ext (by simp [advance, List.take_of_length_le h]) (ahead_of_le h).symm

/-- The number of bytes before the next stall or the end. -/
def reach (tape : Tape) : Nat :=
  match tape.stalls with
  | [] => tape.unread.length
  | stall :: _ => min tape.unread.length (stall - tape.position)

/-- The tape after an empty read, which uses up a stall that was met. -/
def halt (tape : Tape) : Tape :=
  match tape.stalls with
  | [] => tape
  | stall :: later => if stall ≤ tape.position then { tape with stalls := later } else tape

def onward (size : Nat) (tape : Tape) : Tape :=
  if size ≤ tape.reach then tape.ahead size else (tape.ahead tape.reach).halt

theorem reach_of_nil {tape : Tape} (h : tape.stalls = []) : tape.reach = tape.unread.length := by
  rw [reach, h]

theorem reach_of_cons {tape : Tape} {stall : Nat} {later : List Nat}
    (h : tape.stalls = stall :: later) :
    tape.reach = min tape.unread.length (stall - tape.position) := by
  rw [reach, h]

theorem reach_le (tape : Tape) : tape.reach ≤ tape.unread.length := by
  cases hs : tape.stalls with
  | nil => exact Nat.le_of_eq (reach_of_nil hs)
  | cons stall later =>
      rw [reach_of_cons hs]
      exact Nat.min_le_left _ _

theorem reach_ahead {size : Nat} {tape : Tape} (h : size ≤ tape.reach) :
    (tape.ahead size).reach = tape.reach - size := by
  have hl := Nat.le_trans h tape.reach_le
  cases hs : tape.stalls with
  | nil =>
      have ha : (tape.ahead size).stalls = [] := hs
      rw [reach_of_nil hs, reach_of_nil ha, unread_ahead, List.length_drop]
  | cons stall later =>
      have ha : (tape.ahead size).stalls = stall :: later := hs
      rw [reach_of_cons hs, reach_of_cons ha, unread_ahead, List.length_drop, position_ahead,
        Nat.min_eq_left hl]
      omega

@[simp] theorem onward_zero (tape : Tape) : tape.onward 0 = tape := by
  rw [onward, if_pos (Nat.zero_le _), ahead_zero]

theorem onward_ahead {done size : Nat} {tape : Tape} (hs : done ≤ size) (hr : done ≤ tape.reach) :
    (tape.ahead done).onward (size - done) = tape.onward size := by
  unfold onward
  rw [reach_ahead hr, ahead_ahead, ahead_ahead, Nat.add_sub_cancel' hs, Nat.add_sub_cancel' hr]
  by_cases h : size ≤ tape.reach
  · rw [if_pos h, if_pos (by omega)]
  · rw [if_neg h, if_neg (by omega)]

theorem capped_le (size : Nat) (tape : Tape) : tape.capped size ≤ size := by
  unfold capped
  split
  · exact Nat.min_le_left _ _
  · exact Nat.le_refl _

theorem length_pull_le (size : Nat) (tape : Tape) : (tape.pull size).1.length ≤ size := by
  have hc := tape.capped_le size
  have ha : ∀ count, (tape.advance count).1.length ≤ count := by
    intro count
    rw [advance, List.length_take]
    exact Nat.min_le_left _ _
  unfold pull
  split
  · exact Nat.le_trans (ha _) hc
  · split
    · exact Nat.zero_le _
    · exact Nat.le_trans (ha _) (Nat.le_trans (Nat.min_le_left _ _) hc)

theorem length_gather_le (size : Nat) (tape : Tape) : (tape.gather size).1.length ≤ size := by
  induction size, tape using gather_induct with
  | done => exact Nat.zero_le _
  | dry => exact Nat.zero_le _
  | more size tape hs hp rest ih =>
      have hle := length_pull_le size tape
      rw [List.length_append]
      omega

theorem capped_pos {size : Nat} {tape : Tape} (hl : tape.limit ≠ some 0) (hs : 0 < size) :
    0 < tape.capped size := by
  unfold capped
  split
  · rename_i limit he
    have : limit ≠ 0 := by
      rintro rfl
      exact hl he
    omega
  · exact hs

theorem pull_zero (tape : Tape) : tape.pull 0 = ([], tape.halt) := by
  have hc : tape.capped 0 = 0 := Nat.le_zero.mp (tape.capped_le 0)
  have ha : tape.advance 0 = ([], tape) := Prod.ext (by simp [advance]) tape.ahead_zero
  unfold pull halt
  cases tape.stalls with
  | nil => rw [hc, ha]
  | cons stall later =>
      by_cases hp : stall ≤ tape.position
      · simp only [if_pos hp]
      · simp only [if_neg hp, hc, Nat.zero_min, ha]

/-- At a stall or at the end a read is empty. -/
theorem pull_of_reach_eq_zero {tape : Tape} (h : tape.reach = 0) (size : Nat) :
    tape.pull size = ([], tape.halt) := by
  have hnil : tape.unread.length = 0 → ∀ count, tape.advance count = ([], tape) := by
    intro hl count
    have hn := List.eq_nil_of_length_eq_zero hl
    exact Prod.ext (by simp [advance, hn]) (ahead_of_nil hn count)
  unfold pull halt
  cases hs : tape.stalls with
  | nil =>
      rw [reach_of_nil hs] at h
      exact hnil h _
  | cons stall later =>
      rw [reach_of_cons hs] at h
      by_cases hp : stall ≤ tape.position
      · simp only [if_pos hp]
      · simp only [if_neg hp]
        exact hnil (by omega) _

/-- Elsewhere a read brings at least one byte, and none beyond the stall. -/
theorem exists_pull {tape : Tape} (hl : tape.limit ≠ some 0) {size : Nat} (hs : 0 < size)
    (hr : 0 < tape.reach) :
    ∃ count, 0 < count ∧ count ≤ size ∧ count ≤ tape.reach ∧
      tape.pull size = (tape.unread.take count, tape.ahead count) := by
  have hc := capped_pos hl hs
  have hle := tape.capped_le size
  unfold pull
  cases hstalls : tape.stalls with
  | nil =>
      rw [reach_of_nil hstalls] at hr ⊢
      refine ⟨min (tape.capped size) tape.unread.length, by omega, by omega, by omega, ?_⟩
      exact (advance_min _ _).symm
  | cons stall later =>
      rw [reach_of_cons hstalls] at hr ⊢
      have hp : ¬ stall ≤ tape.position := by omega
      refine ⟨min (min (tape.capped size) (stall - tape.position)) tape.unread.length, by omega,
        by omega, by omega, ?_⟩
      simp only [if_neg hp]
      exact (advance_min _ _).symm

private theorem take_add_drop_take (bytes : Bytes) {count size : Nat} (h : count ≤ size) :
    bytes.take count ++ (bytes.drop count).take (size - count) = bytes.take size := by
  rw [← List.take_add, Nat.add_sub_cancel' h]

/-- A read that brings bytes, as the first step of a loop sees it. -/
theorem eq_of_pull {tape after : Tape} (hl : tape.limit ≠ some 0) {size : Nat} (hs : 0 < size)
    {byte : UInt8} {bytes : Bytes} (h : tape.pull size = (byte :: bytes, after)) :
    bytes.length + 1 ≤ size ∧ bytes.length + 1 ≤ tape.reach ∧
      byte :: bytes = tape.unread.take (bytes.length + 1) ∧
      after = tape.ahead (bytes.length + 1) := by
  by_cases hr : tape.reach = 0
  · rw [pull_of_reach_eq_zero hr] at h
    cases h
  · obtain ⟨count, -, hsize, hreach, hpull⟩ := exists_pull hl hs (Nat.pos_of_ne_zero hr)
    obtain ⟨hb, rfl⟩ := Prod.mk.inj (hpull.symm.trans h)
    have hle := tape.reach_le
    have hcount : bytes.length + 1 = count := by
      have := congrArg List.length hb
      rw [List.length_take, List.length_cons] at this
      omega
    rw [hcount]
    exact ⟨hsize, hreach, hb.symm, rfl⟩

/-- An empty read within a loop: nothing was in reach. -/
theorem eq_of_pull_nil {tape after : Tape} (hl : tape.limit ≠ some 0) {size : Nat} (hs : 0 < size)
    (h : tape.pull size = ([], after)) : tape.reach = 0 ∧ after = tape.halt := by
  by_cases hr : tape.reach = 0
  · rw [pull_of_reach_eq_zero hr] at h
    exact ⟨hr, (Prod.mk.inj h).2.symm⟩
  · obtain ⟨count, hc, -, hreach, hpull⟩ := exists_pull hl hs (Nat.pos_of_ne_zero hr)
    have hle := tape.reach_le
    have hb := congrArg List.length (Prod.mk.inj (hpull.symm.trans h)).1
    rw [List.length_take, List.length_nil] at hb
    omega

/-- A loop over short reads brings what lies within the reach. -/
theorem gather_eq {tape : Tape} (hl : tape.limit ≠ some 0) (size : Nat) :
    tape.gather size = (tape.unread.take (min size tape.reach), tape.onward size) := by
  induction size using Nat.strongRecOn generalizing tape with
  | _ size ih =>
      rw [gather, gatherInto]
      split
      · rename_i hz
        simp [hz, onward]
      · rename_i hz
        have hs := Nat.pos_of_ne_zero hz
        split
        · rename_i after h
          obtain ⟨hr, rfl⟩ := eq_of_pull_nil hl hs h
          rw [onward, hr, Nat.min_zero, if_neg (by omega), ahead_zero]
          simp
        · rename_i byte bytes after h
          obtain ⟨hle, hr, hb, rfl⟩ := eq_of_pull hl hs h
          have hmin : min (size - (bytes.length + 1)) (tape.reach - (bytes.length + 1)) =
              min size tape.reach - (bytes.length + 1) := by omega
          rw [gatherInto_append, ih _ (by omega) (show (tape.ahead _).limit ≠ some 0 from hl),
            onward_ahead hle hr, reach_ahead hr, hmin, hb, unread_ahead, List.reverse_singleton,
            List.flatten_singleton, take_add_drop_take _ (by omega)]

theorem passFrom_eq (passed chunk size : Nat) (tape : Tape) :
    passFrom passed chunk size tape =
      (passed + (pass chunk size tape).1, (pass chunk size tape).2) := by
  induction size using Nat.strongRecOn generalizing passed tape with
  | _ size ih =>
      rw [pass, passFrom, passFrom.eq_def 0]
      split
      · rfl
      · split
        · rfl
        · rename_i byte bytes after _
          rw [ih _ (by omega), ih _ (by omega) (0 + (bytes.length + 1))]
          simp only [Nat.zero_add, Nat.add_assoc]

theorem pass_eq {tape : Tape} (hl : tape.limit ≠ some 0) {chunk : Nat} (hc : 0 < chunk)
    (size : Nat) : tape.pass chunk size = (min size tape.reach, tape.onward size) := by
  induction size using Nat.strongRecOn generalizing tape with
  | _ size ih =>
      rw [pass, passFrom]
      split
      · rename_i hz
        simp [hz, onward]
      · rename_i hz
        have hs : 0 < min chunk size := by omega
        split
        · rename_i after h
          obtain ⟨hr, rfl⟩ := eq_of_pull_nil hl hs h
          rw [onward, hr, Nat.min_zero, if_neg (by omega), ahead_zero]
        · rename_i byte bytes after h
          obtain ⟨hle, hr, -, rfl⟩ := eq_of_pull hl hs h
          rw [passFrom_eq, ih _ (by omega) (show (tape.ahead _).limit ≠ some 0 from hl),
            onward_ahead (by omega) hr, reach_ahead hr]
          exact Prod.ext (by dsimp only; omega) rfl

theorem drainInto_append (done : List Bytes) (chunk : Nat) (tape : Tape) :
    drainInto done chunk tape =
      (done.reverse.flatten ++ (drain chunk tape).1, (drain chunk tape).2) := by
  induction h : tape.unread.length using Nat.strongRecOn generalizing done tape with
  | _ n ih =>
      rw [drain, drainInto, drainInto.eq_def []]
      split
      · rename_i after hp
        simp
      · rename_i byte bytes after hp
        have hlt : after.unread.length < n := by
          have := length_pull chunk tape
          rw [hp, List.length_cons] at this
          dsimp only at this
          omega
        rw [ih _ hlt _ _ rfl, ih _ hlt [byte :: bytes] _ rfl]
        simp

/-- Everything within the reach is drained, and the read that meets its end is empty. -/
theorem drain_eq {tape : Tape} (hl : tape.limit ≠ some 0) {chunk : Nat} (hc : 0 < chunk) :
    tape.drain chunk = (tape.unread.take tape.reach, (tape.ahead tape.reach).halt) := by
  induction h : tape.reach using Nat.strongRecOn generalizing tape with
  | _ n ih =>
      subst h
      rw [drain, drainInto]
      split
      · rename_i after hp
        obtain ⟨hr, rfl⟩ := eq_of_pull_nil hl hc hp
        rw [hr, ahead_zero]
        simp
      · rename_i byte bytes after hp
        obtain ⟨-, hr, hb, rfl⟩ := eq_of_pull hl hc hp
        have hreach := reach_ahead hr
        rw [drainInto_append, ih _ (by omega) (show (tape.ahead _).limit ≠ some 0 from hl) rfl,
          hreach, ahead_ahead, Nat.add_sub_cancel' hr, hb, unread_ahead, List.reverse_singleton,
          List.flatten_singleton, take_add_drop_take _ hr]

theorem drain_zero (tape : Tape) : tape.drain 0 = ([], tape.halt) := by
  rw [drain, drainInto]
  split
  · rename_i after h
    rw [pull_zero] at h
    cases h
    rfl
  · rename_i byte bytes after h
    rw [pull_zero] at h
    cases h

theorem pass_zero {size : Nat} (hs : 0 < size) (tape : Tape) :
    tape.pass 0 size = (0, tape.halt) := by
  rw [pass, passFrom, if_neg (by omega), Nat.zero_min, pull_zero]

end Tape

namespace Reading

/-- Why a tape does not answer a reading of `size` bytes, which may be none at all. -/
def refused? (size : Int) (tape : Tape) : Option Failure :=
  if size ≤ 0 then none else refusal? size.toNat tape

/-- Why a request can be refused. -/
theorem kind_of_refusal {size : Nat} {tape : Tape} {failure : Failure}
    (h : refusal? size tape = some failure) :
    failure = .closed ∨ ∃ asked, failure = .request asked := by
  unfold refusal? at h
  split at h
  · cases h
    exact .inl rfl
  · split at h
    · cases h
      exact .inr ⟨_, rfl⟩
    · cases h
  · cases h

theorem kind_of_refused {size : Int} {tape : Tape} {failure : Failure}
    (h : refused? size tape = some failure) :
    failure = .closed ∨ ∃ asked, failure = .request asked := by
  unfold refused? at h
  split at h
  · cases h
  · exact kind_of_refusal h

theorem refused?_congr {first second : Tape} (h : first.access = second.access) (size : Int) :
    refused? size first = refused? size second := by
  rw [refused?, refused?, refusal?, refusal?, h]

theorem take_append {size : Int} {tape after : Tape} {bytes : Bytes}
    (h : take size tape = (.ok bytes, after)) :
    bytes ++ after.unread = tape.unread ∧ bytes.length ≤ size.toNat := by
  rw [take_tape] at h
  split at h
  · obtain ⟨hb, rfl⟩ := Prod.mk.inj h
    obtain rfl : [] = bytes := by simpa using hb
    exact ⟨rfl, Nat.zero_le _⟩
  · unfold ofStep at h
    split at h
    · cases h
    · obtain ⟨hb, rfl⟩ := Prod.mk.inj h
      obtain rfl : _ = bytes := by simpa using hb
      exact ⟨Tape.gather_append _ _, Tape.length_gather_le _ _⟩

variable {tape : Tape}

theorem take_eq (hl : tape.limit ≠ some 0) (size : Int) :
    take size tape =
      match refused? size tape with
      | some failure => (.error failure, tape)
      | none => (.ok (tape.unread.take (min size.toNat tape.reach)), tape.onward size.toNat) := by
  rw [take_tape]
  unfold refused?
  by_cases hs : size ≤ 0
  · have hz : size.toNat = 0 := by omega
    rw [if_pos hs, if_pos hs, hz, Nat.zero_min, List.take_zero, Tape.onward_zero]
    rfl
  · cases hf : refusal? size.toNat tape with
    | some failure => simp only [if_neg hs, ofStep, hf]
    | none => simp only [if_neg hs, ofStep, hf, Tape.gather_eq hl]

theorem take_of_reach (hl : tape.limit ≠ some 0) {size : Int} (hr : size.toNat ≤ tape.reach) :
    take size tape =
      match refused? size tape with
      | some failure => (.error failure, tape)
      | none => (.ok (tape.unread.take size.toNat), tape.ahead size.toNat) := by
  rw [take_eq hl, Nat.min_eq_left hr, Tape.onward, if_pos hr]

theorem skip_eq (hl : tape.limit ≠ some 0) (size : Int) {chunk : Nat} (hc : 0 < chunk) :
    skip size chunk tape =
      match refused? (min chunk size) tape with
      | some failure => (.error failure, tape)
      | none => (.ok (min size.toNat tape.reach), tape.onward size.toNat) := by
  rw [skip_tape]
  unfold refused?
  by_cases hs : size ≤ 0
  · have hz : size.toNat = 0 := by omega
    have hm : min (chunk : Int) size ≤ 0 := by omega
    rw [if_pos hs, if_pos hm, hz, Nat.zero_min, Tape.onward_zero]
    rfl
  · have hm : ¬ min (chunk : Int) size ≤ 0 := by omega
    have ht : (min (chunk : Int) size).toNat = min chunk size.toNat := by omega
    cases hf : refusal? (min chunk size.toNat) tape with
    | some failure => simp only [if_neg hs, if_neg hm, ht, ofStep, hf]
    | none => simp only [if_neg hs, if_neg hm, ht, ofStep, hf, Tape.pass_eq hl hc]

end Reading

end SeisLog
